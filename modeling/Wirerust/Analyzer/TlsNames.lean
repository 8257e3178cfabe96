import Wirerust.Analyzer.TlsRecords
import Wirerust.Lib.Joined
import Wirerust.Lib.Tally
import Wirerust.Utf8

/-!
Under which key a host name is counted (`extract_sni` and `handle_client_hello` of
`analyzer/tls.rs`).

A name that is UTF-8 is its own key, any other gets a placeholder with its bytes in hexadecimal.
Placeholders are different for different names (`placeholder_injective`), but a placeholder is
itself a text that a client can send: then two names share a key, and only then (`key_eq_iff`).
Over a run of hellos the counts are those of the keys (`run_tallies`), so that a name is counted
right unless it shares its key (`sniCounts_exact_iff`).
-/

namespace Wirerust.Tls

open Lib Wirerust.Flow Wirerust.Analyzer

/-! ## Hexadecimal -/

/-- The two digits of a byte. -/
def hexPair (b : UInt8) : List Char := [(b.toNat / 16).digitChar, (b.toNat % 16).digitChar]

theorem toList_hexLower (b : UInt8) : (Text.hexLower 2 b.toNat).toList = hexPair b := by
  rw [Text.hexLower, String.toList_ofList, leftpad_toDigits b.toNat_lt]
  rfl

theorem hexPair_injective : Function.Injective hexPair := by
  intro a b h
  exact UInt8.toNat_inj.mp (byteDigits_inj a.toNat_lt b.toNat_lt h)

theorem toList_bytesToHex (bytes : List UInt8) :
    (bytesToHex bytes).toList = bytes.flatMap hexPair := by
  rw [bytesToHex, String.toList_join, List.flatMap_map]
  simp only [toList_hexLower]

theorem bytesToHex_injective : Function.Injective bytesToHex := by
  intro a b h
  have hpairs := congrArg String.toList h
  rw [toList_bytesToHex, toList_bytesToHex] at hpairs
  exact flatMap_injective Nat.two_pos (fun _ => rfl) hexPair_injective hpairs

theorem isAscii_append {s t : String} (hs : Text.isAscii s = true) (ht : Text.isAscii t = true) :
    Text.isAscii (s ++ t) = true := by
  rw [Text.isAscii, String.toList_append, List.all_append, Bool.and_eq_true]
  exact ⟨hs, ht⟩

theorem isAscii_bytesToHex (bytes : List UInt8) : Text.isAscii (bytesToHex bytes) = true := by
  have hdigit : ∀ n < 16, n.digitChar.toNat < 0x80 := by decide
  rw [Text.isAscii, toList_bytesToHex, List.all_eq_true]
  intro c hc
  obtain ⟨b, -, hc⟩ := List.mem_flatMap.mp hc
  have hb := b.toNat_lt
  simp only [hexPair, List.mem_cons, List.not_mem_nil, or_false] at hc
  apply decide_eq_true
  rcases hc with rfl | rfl
  · exact hdigit _ (by omega)
  · exact hdigit _ (by omega)

/-! ## Keys -/

/-- What stands for a name that is not UTF-8. -/
def placeholder (hostname : List UInt8) : String := "<non-utf8:" ++ bytesToHex hostname ++ ">"

/-- The key of a name. -/
def sniKey (hostname : List UInt8) : String := (Text.fromUtf8 hostname).getD (placeholder hostname)

theorem sniValue_key (hostname : List UInt8) :
    Returns (sniValue hostname) (fun sni => sni.key = sniKey hostname) := by
  unfold sniValue sniKey
  cases Text.fromUtf8 hostname with
  | none => exact .pure rfl
  | some name =>
    simp only
    split
    · rename_i hascii
      rw [containsC0OrDel, assertThat_of hascii, ok_bind, ok_bind]
      split
      · exact .pure rfl
      · exact .pure rfl
    · exact .pure rfl

theorem placeholder_injective : Function.Injective placeholder := by
  intro a b h
  have hchars := congrArg String.toList h
  simp only [placeholder, String.toList_append] at hchars
  have hhex := List.append_cancel_left (List.append_cancel_right hchars)
  exact bytesToHex_injective (String.toList_inj.mp hhex)

theorem isAscii_placeholder (hostname : List UInt8) :
    Text.isAscii (placeholder hostname) = true :=
  isAscii_append (isAscii_append (by decide) (isAscii_bytesToHex hostname)) (by decide)

/-- `b` is the placeholder of `a`, spelled out. -/
def Shadows (a b : List UInt8) : Prop :=
  Text.fromUtf8 a = none ∧ b = Text.asciiBytes (placeholder a)

instance (a b : List UInt8) : Decidable (Shadows a b) :=
  inferInstanceAs (Decidable (_ ∧ _))

def Clash (a b : List UInt8) : Prop := Shadows a b ∨ Shadows b a

instance (a b : List UInt8) : Decidable (Clash a b) :=
  inferInstanceAs (Decidable (_ ∨ _))

theorem Shadows.key_eq {a b : List UInt8} (h : Shadows a b) : sniKey a = sniKey b := by
  obtain ⟨hnone, rfl⟩ := h
  rw [sniKey, sniKey, hnone, Text.fromUtf8_asciiBytes (isAscii_placeholder a)]
  rfl

theorem shadows_of_key {a b : List UInt8} {s : String} (ha : Text.fromUtf8 a = none)
    (hb : Text.fromUtf8 b = some s) (h : sniKey a = sniKey b) : Shadows a b := by
  rw [sniKey, sniKey, ha, hb] at h
  refine ⟨ha, Text.fromUtf8_injective hb ?_⟩
  rw [Text.fromUtf8_asciiBytes (isAscii_placeholder a)]
  exact congrArg some h

/-- Different names share a key just when one is the placeholder of the other. -/
theorem key_eq_iff {a b : List UInt8} (hne : a ≠ b) : sniKey a = sniKey b ↔ Clash a b := by
  constructor
  · intro h
    cases ha : Text.fromUtf8 a with
    | none =>
      cases hb : Text.fromUtf8 b with
      | none =>
        rw [sniKey, sniKey, ha, hb] at h
        exact absurd (placeholder_injective h) hne
      | some s => exact .inl (shadows_of_key ha hb h)
    | some s =>
      cases hb : Text.fromUtf8 b with
      | none => exact .inr (shadows_of_key hb ha h.symm)
      | some t =>
        rw [sniKey, sniKey, ha, hb] at h
        have hst : s = t := h
        subst hst
        exact absurd (Text.fromUtf8_injective ha hb) hne
  · rintro (h | h)
    · exact h.key_eq
    · exact h.key_eq.symm

theorem not_shadows_self (a : List UInt8) : ¬ Shadows a a := by
  rintro ⟨hnone, heq⟩
  rw [heq, Text.fromUtf8_asciiBytes (isAscii_placeholder a)] at hnone
  cases hnone

theorem not_clash_self (a : List UInt8) : ¬ Clash a a :=
  fun h => h.elim (not_shadows_self a) (not_shadows_self a)

/-! ## Hellos -/

/-- The name that a hello asks for. -/
def hostname (lib : TlsParser) (ch : ClientHelloContents) : Option (List UInt8) :=
  firstHostname (parseExtensions lib ch.ext 0).1

/-- A `ClientHello` and when it came. -/
abbrev TimedHello := ClientHelloContents × UInt32

def hostnames (lib : TlsParser) (hellos : List TimedHello) : List (List UInt8) :=
  hellos.filterMap fun hello => hostname lib hello.1

def onHello (lib : TlsParser) (s : TlsAnalyzer) (hello : TimedHello) : Checked TlsAnalyzer :=
  handleClientHello lib s hello.1 hello.2

theorem parseExtensions_fst (lib : TlsParser) (ext : Option (List UInt8)) (parseErrors : Nat) :
    (parseExtensions lib ext parseErrors).1 = (parseExtensions lib ext 0).1 := by
  unfold parseExtensions
  cases ext with
  | none => rfl
  | some raw =>
    simp only
    cases lib.extensions raw with
    | none => rfl
    | some exts => rfl

/-- Below the limit no key is refused. -/
theorem increment_tallies {κ : Type} [LinearOrder κ] {counts : SortedMap κ Nat} {seen : List κ}
    (h : Tallies counts seen) {key : κ} {limit dropped : Nat}
    (hlimit : (seen ++ [key]).dedup.length ≤ limit) {r : SortedMap κ Nat × Nat}
    (hr : increment counts key limit dropped = .ok r) : Tallies r.1 (seen ++ [key]) := by
  rw [increment, if_pos (h.accepts hlimit)] at hr
  obtain ⟨counted, hcounted, hr⟩ := bind_eq_ok.mp hr
  cases hr
  obtain ⟨hcount, hmap⟩ := countEntry_eq_ok hcounted
  rw [hmap, hcount]
  exact h.snoc key

section Steps

variable {s s' : TlsAnalyzer} {seen : List String}

theorem recordSni_tallies {sni : Option SniValue} {lastTs : UInt32}
    (hs' : recordSni s sni lastTs = .ok s') (h : Tallies s.sniCounts seen)
    (hlimit : (seen ++ (sni.map SniValue.key).toList).dedup.length ≤ maxMapEntries) :
    Tallies s'.sniCounts (seen ++ (sni.map SniValue.key).toList) := by
  unfold recordSni at hs'
  cases sni with
  | none =>
    cases hs'
    simpa using h
  | some sni =>
    obtain ⟨s₁, hs₁, hs'⟩ := bind_eq_ok.mp hs'
    cases hs'
    obtain ⟨r, hr, hs₁⟩ := bind_eq_ok.mp hs₁
    cases hs₁
    exact increment_tallies h hlimit hr

theorem extractSni_keys {exts : List TlsExtension} {sni : Option SniValue}
    (h : extractSni exts = .ok sni) : sni.map SniValue.key = (firstHostname exts).map sniKey := by
  unfold extractSni at h
  cases hhost : firstHostname exts with
  | none =>
    rw [hhost] at h
    cases h
    rfl
  | some host =>
    rw [hhost] at h
    obtain ⟨value, hvalue, h⟩ := bind_eq_ok.mp h
    cases h
    exact congrArg some ((sniValue_key host).apply hvalue)

theorem handleClientHello_tallies (lib : TlsParser) (ch : ClientHelloContents) (lastTs : UInt32)
    (h : Tallies s.sniCounts seen)
    (hlimit : (seen ++ ((hostname lib ch).map sniKey).toList).dedup.length ≤ maxMapEntries)
    (hs' : handleClientHello lib s ch lastTs = .ok s') :
    Tallies s'.sniCounts (seen ++ ((hostname lib ch).map sniKey).toList) := by
  unfold handleClientHello at hs'
  obtain ⟨s₁, hs₁, hs'⟩ := bind_eq_ok.mp hs'
  obtain ⟨versions, dropped₁, rfl, -⟩ := (countVersion_total _ _).2 _ hs₁
  obtain ⟨sni, hsni, hs'⟩ := bind_eq_ok.mp hs'
  have hkeys : sni.map SniValue.key = (hostname lib ch).map sniKey := by
    rw [hostname, ← parseExtensions_fst lib ch.ext s.parseErrors]
    exact extractSni_keys hsni
  rw [← hkeys] at hlimit ⊢
  obtain ⟨s₂, hs₂, hs'⟩ := bind_eq_ok.mp hs'
  have htallies := recordSni_tallies hs₂ h hlimit
  obtain ⟨s₃, hs₃, hs'⟩ := bind_eq_ok.mp hs'
  obtain ⟨hashes, dropped₃, rfl, -⟩ := (countJa3_total _ _).2 _ hs₃
  cases hs'
  exact htallies

end Steps

theorem hostnames_snoc (lib : TlsParser) (hellos : List TimedHello) (hello : TimedHello) :
    hostnames lib (hellos ++ [hello]) = hostnames lib hellos ++ (hostname lib hello.1).toList := by
  rw [hostnames, List.filterMap_append, ← hostnames]
  cases hhost : hostname lib hello.1 with
  | none => simp [hhost]
  | some host => simp [hhost]

/-- The different keys fit the map. -/
def BelowCap (lib : TlsParser) (hellos : List TimedHello) : Prop :=
  ((hostnames lib hellos).map sniKey).dedup.length ≤ maxMapEntries

theorem BelowCap.mono {lib : TlsParser} {pre hellos : List TimedHello}
    (h : BelowCap lib hellos) (hpre : pre <+: hellos) : BelowCap lib pre :=
  (dedup_length_mono ((hpre.filterMap _).map sniKey)).trans h

/-- After any hellos the map holds how often each key has come up. -/
theorem run_tallies (lib : TlsParser) (hellos : List TimedHello) (hcap : BelowCap lib hellos) :
    ReturnsIf (hellos.length < 2 ^ 64) (run (onHello lib) .new hellos)
      (fun s => Tallies s.sniCounts ((hostnames lib hellos).map sniKey)) := by
  refine (run_returnsIf_seen (I := fun seen s => load s ≤ seen.length ∧
    Tallies s.sniCounts ((hostnames lib seen).map sniKey)) hellos ?_ ?_).mono fun s hs => hs.2
  · exact ⟨Nat.le_refl _, Tallies.empty⟩
  · intro pre hello s hpre ⟨hload, htallies⟩
    have hlength := hpre.length_le
    rw [List.length_append, List.length_singleton] at hlength
    have hsnoc : (hostnames lib (pre ++ [hello])).map sniKey =
        (hostnames lib pre).map sniKey ++ ((hostname lib hello.1).map sniKey).toList := by
      rw [hostnames_snoc, List.map_append]
      cases hostname lib hello.1 with
      | none => rfl
      | some host => rfl
    have hlimit := hcap.mono hpre
    rw [BelowCap, hsnoc] at hlimit
    have htotal := handleClientHello_total s lib hello.1 hello.2
    refine ⟨fun hfew => htotal.1 (by omega), fun s' hs' => ⟨?_, ?_⟩⟩
    · have hload' := (htotal.2 s' hs').2
      rw [List.length_append, List.length_singleton]
      omega
    · rw [hsnoc]
      exact handleClientHello_tallies lib hello.1 hello.2 htallies hlimit hs'

/-! ## Exact counts -/

theorem count_key (names : List (List UInt8)) (host : List UInt8) :
    (names.map sniKey).count (sniKey host) =
      names.count host + names.countP fun b => decide (Clash host b) := by
  induction names with
  | nil => rfl
  | cons b names ih =>
    rw [List.map_cons, List.count_cons, List.count_cons, List.countP_cons, ih]
    by_cases hb : b = host
    · subst hb
      rw [decide_eq_false (not_clash_self b)]
      simp only [beq_self_eq_true, if_true, Bool.false_eq_true, if_false]
      omega
    · have hkey := key_eq_iff (a := host) (b := b) (Ne.symm hb)
      by_cases hclash : Clash host b
      · rw [hkey.mpr hclash]
        simp only [beq_self_eq_true, if_true, hclash, decide_true, beq_eq_false_iff_ne.mpr hb,
          Bool.false_eq_true, if_false]
        omega
      · have hne : sniKey b ≠ sniKey host := fun heq => hclash (hkey.mp heq.symm)
        simp only [beq_eq_false_iff_ne.mpr hne, beq_eq_false_iff_ne.mpr hb, hclash, decide_false,
          Bool.false_eq_true, if_false]
        omega

theorem count_key_eq_iff (names : List (List UInt8)) (host : List UInt8) :
    (names.map sniKey).count (sniKey host) = names.count host ↔ ∀ b ∈ names, ¬ Clash host b := by
  rw [count_key, Nat.add_eq_left, List.countP_eq_zero]
  simp

/-- Two names have different keys, and a name is counted by its bytes, just when no placeholder
of the one name is sent as the other. -/
theorem sniCounts_exact_iff (lib : TlsParser) (hellos : List TimedHello)
    (hcap : BelowCap lib hellos) :
    (∀ a b, a ≠ b → ∃ x y, sniValue a = .ok x ∧ sniValue b = .ok y ∧
      (x.key ≠ y.key ↔ ¬ Clash a b)) ∧
    ReturnsIf (hellos.length < 2 ^ 64) (run (onHello lib) .new hellos) (fun s =>
      ∀ host, ∃ sni, sniValue host = .ok sni ∧
        ((s.sniCounts.get? sni.key).getD 0 = (hostnames lib hellos).count host ↔
          ∀ b ∈ hostnames lib hellos, ¬ Clash host b)) := by
  constructor
  · intro a b hne
    obtain ⟨x, hx, hxkey⟩ := sniValue_key a
    obtain ⟨y, hy, hykey⟩ := sniValue_key b
    refine ⟨x, y, hx, hy, ?_⟩
    rw [hxkey, hykey]
    exact not_congr (key_eq_iff hne)
  · refine (run_tallies lib hellos hcap).mono fun s htallies host => ?_
    obtain ⟨sni, hsni, hkey⟩ := sniValue_key host
    refine ⟨sni, hsni, ?_⟩
    rw [hkey, htallies.getD_eq]
    exact count_key_eq_iff _ host

/-- A length field of two bytes. -/
def lengthField (n : Nat) : List UInt8 := [UInt8.ofNat (n / 256), UInt8.ofNat n]

/-- A `server_name` extension with one host name. -/
def serverName (host : List UInt8) : List UInt8 :=
  [0, 0] ++ lengthField (host.length + 5) ++ lengthField (host.length + 3) ++ [0] ++
    lengthField host.length ++ host

/-- The parser for extensions of which there is one, with one host name. -/
def namingParser : TlsParser where
  messageHandshake := fun _ => none
  extensions := fun raw =>
    match raw with
    | 0 :: 0 :: extHi :: extLo :: listHi :: listLo :: 0 :: hi :: lo :: host =>
      if (beU16 extHi extLo).toNat = host.length + 5 ∧
          (beU16 listHi listLo).toNat = host.length + 3 ∧ (beU16 hi lo).toNat = host.length then
        some [⟨0, .sni [(0, host)]⟩]
      else none
    | _ => none
  cipherSuiteName := fun _ => none
  md5 := id

def helloFor (host : List UInt8) : TimedHello := (⟨0x0303, [], some (serverName host)⟩, 0)

/-- The placeholder of the byte 0xff. -/
def spelledOut : List UInt8 := Text.asciiBytes "<non-utf8:ff>"

theorem shadows_spelledOut : Shadows [0xff] spelledOut := by decide

/-- One hello for each of two names, and a count of two. -/
theorem sni_keys_collide :
    [0xff] ≠ spelledOut ∧ (∃ x y, sniValue [0xff] = .ok x ∧ sniValue spelledOut = .ok y ∧
      x.key = y.key) ∧
    Returns (run (onHello namingParser) .new [helloFor [0xff], helloFor spelledOut]) (fun s =>
      (s.sniCounts.get? "<non-utf8:ff>").getD 0 = 2 ∧
        (hostnames namingParser [helloFor [0xff], helloFor spelledOut]).count [0xff] = 1) := by
  refine ⟨by decide, ?_, ?_⟩
  · obtain ⟨x, hx, hxkey⟩ := sniValue_key [0xff]
    obtain ⟨y, hy, hykey⟩ := sniValue_key spelledOut
    exact ⟨x, y, hx, hy, by rw [hxkey, hykey, shadows_spelledOut.key_eq]⟩
  · have hcap : BelowCap namingParser [helloFor [0xff], helloFor spelledOut] :=
      (List.dedup_sublist _).length_le.trans (by decide)
    refine ((run_tallies _ _ hcap).returns (by decide)).mono fun s htallies => ⟨?_, by decide⟩
    rw [htallies.getD_eq]
    decide

theorem sniCounts_exact_iff_apart :
    (∃ x y, sniValue [0xff] = .ok x ∧ sniValue [0xfe] = .ok y ∧
      (x.key ≠ y.key ↔ ¬ Clash [0xff] [0xfe])) ∧
    ReturnsIf ([helloFor [0xff], helloFor [0xfe]].length < 2 ^ 64)
      (run (onHello namingParser) .new [helloFor [0xff], helloFor [0xfe]]) (fun s =>
        ∀ host, ∃ sni, sniValue host = .ok sni ∧
          ((s.sniCounts.get? sni.key).getD 0 =
              (hostnames namingParser [helloFor [0xff], helloFor [0xfe]]).count host ↔
            ∀ b ∈ hostnames namingParser [helloFor [0xff], helloFor [0xfe]], ¬ Clash host b)) := by
  obtain ⟨hkeys, hcounts⟩ := sniCounts_exact_iff namingParser
    [helloFor [0xff], helloFor [0xfe]] ((List.dedup_sublist _).length_le.trans (by decide))
  exact ⟨hkeys [0xff] [0xfe] (by decide), hcounts⟩

end Wirerust.Tls
