import Wirerust.Capture.Timestamps

/-!
The bodies of the blocks: how a packet and a list of options are written down, and what the
decoders make of it.

`epb_round_trip` reads back the body of an Enhanced Packet Block, says which bodies are accepted,
and that the decoder with typed errors accepts the same ones. For the options of an Interface
Description Block, `Options` is the grammar, and `options_follow_grammar` says what the walk makes
of every region.
-/

namespace Wirerust.Capture

open Wirerust.Analyzer

/-! ## Fields -/

/-- A `u16` in the byte order of the section. -/
def u16Bytes (e : SectionEndianness) (w : UInt16) : List UInt8 :=
  let high := UInt8.ofNat (w.toNat / 256)
  let low := UInt8.ofNat (w.toNat % 256)
  match e with
  | .bigEndian => [high, low]
  | .littleEndian => [low, high]

/-- A `u32` in the byte order of the section. -/
def u32Bytes (e : SectionEndianness) (w : UInt32) : List UInt8 :=
  let high := u16Bytes e (UInt16.ofNat (w.toNat / 65536))
  let low := u16Bytes e (UInt16.ofNat (w.toNat % 65536))
  match e with
  | .bigEndian => high ++ low
  | .littleEndian => low ++ high

theorem length_u16Bytes (e : SectionEndianness) (w : UInt16) : (u16Bytes e w).length = 2 := by
  cases e with
  | bigEndian => rfl
  | littleEndian => rfl

theorem length_u32Bytes (e : SectionEndianness) (w : UInt32) : (u32Bytes e w).length = 4 := by
  cases e with
  | bigEndian => rfl
  | littleEndian => rfl

theorem beU16_bytes (w : UInt16) :
    beU16 (UInt8.ofNat (w.toNat / 256)) (UInt8.ofNat (w.toNat % 256)) = w := by
  have hlt := w.toNat_lt
  have hhigh : (UInt8.ofNat (w.toNat / 256)).toNat = w.toNat / 256 :=
    UInt8.toNat_ofNat_of_lt' (Nat.div_lt_of_lt_mul hlt)
  have hlow : (UInt8.ofNat (w.toNat % 256)).toNat = w.toNat % 256 :=
    UInt8.toNat_ofNat_of_lt' (Nat.mod_lt _ (by decide))
  rw [beU16, hhigh, hlow, Nat.div_add_mod]
  exact UInt16.ofNat_toNat

theorem u16At_bytes (e : SectionEndianness) (w : UInt16) (rest : List UInt8) :
    u16At e (u16Bytes e w ++ rest) 0 = w := by
  cases e with
  | bigEndian => exact beU16_bytes w
  | littleEndian => exact beU16_bytes w

theorem u16At_drop (e : SectionEndianness) (body : List UInt8) (i j : Nat) :
    u16At e (body.drop i) j = u16At e body (i + j) := by
  simp only [u16At, List.getD_eq_getElem?_getD, List.getElem?_drop, Nat.add_assoc]

/-- A field stands where what is before it has been dropped. -/
theorem u16At_of_drop {e : SectionEndianness} {body rest : List UInt8} {i : Nat} {w : UInt16}
    (h : body.drop i = u16Bytes e w ++ rest) : u16At e body i = w := by
  have hat := u16At_drop e body i 0
  rw [h, u16At_bytes] at hat
  exact hat.symm

theorem drop_field {e : SectionEndianness} (w : UInt16) (rest : List UInt8) :
    (u16Bytes e w ++ rest).drop 2 = rest :=
  List.drop_left' (length_u16Bytes e w)

theorem u32At_of_drop {e : SectionEndianness} {body rest : List UInt8} {i : Nat} {w : UInt32}
    (h : body.drop i = u32Bytes e w ++ rest) : u32At e body i = w := by
  have hlt := w.toNat_lt
  have hhigh : (UInt16.ofNat (w.toNat / 65536)).toNat = w.toNat / 65536 :=
    UInt16.toNat_ofNat_of_lt' (Nat.div_lt_of_lt_mul hlt)
  have hlow : (UInt16.ofNat (w.toNat % 65536)).toNat = w.toNat % 65536 :=
    UInt16.toNat_ofNat_of_lt' (Nat.mod_lt _ (by decide))
  cases e with
  | bigEndian =>
    rw [u32Bytes, List.append_assoc] at h
    have hsecond : body.drop (i + 2) =
        u16Bytes .bigEndian (UInt16.ofNat (w.toNat % 65536)) ++ rest := by
      rw [← List.drop_drop, h, drop_field]
    simp only [u32At, u16At_of_drop h, u16At_of_drop hsecond, hhigh, hlow, Nat.div_add_mod]
    exact UInt32.ofNat_toNat
  | littleEndian =>
    rw [u32Bytes, List.append_assoc] at h
    have hsecond : body.drop (i + 2) =
        u16Bytes .littleEndian (UInt16.ofNat (w.toNat / 65536)) ++ rest := by
      rw [← List.drop_drop, h, drop_field]
    simp only [u32At, u16At_of_drop h, u16At_of_drop hsecond, hhigh, hlow, Nat.div_add_mod]
    exact UInt32.ofNat_toNat

theorem drop_field32 (e : SectionEndianness) (w : UInt32) (rest : List UInt8) (n : Nat) :
    (u32Bytes e w ++ rest).drop (n + 4) = rest.drop n := by
  rw [Nat.add_comm, ← List.drop_drop, List.drop_left' (length_u32Bytes e w)]

/-- `n` and what it takes to reach a multiple of four. -/
def roundUp4 (n : Nat) : Nat := n + (4 - n % 4) % 4

/-! ## Enhanced Packet Blocks -/

inductive EpbDecodeError
  | bodyTooShort
  | emptyInterfaceTable
  | interfaceIdOob
  deriving DecidableEq, Repr

/-- The decoder with typed errors, as the source repeats it for its own proof. -/
def decodeEpbBodyDiscriminant (body : List UInt8) (interfaces : List InterfaceInfo)
    (endianness : SectionEndianness) : Except EpbDecodeError RawPacket :=
  if body.length < epbFixedOverheadBytes then .error .bodyTooShort
  else
    let interfaceId := u32At endianness body 0
    if interfaces.isEmpty then .error .emptyInterfaceTable
    else
      match interfaces[interfaceId.toNat]? with
      | none => .error .interfaceIdOob
      | some iface =>
        let tsHigh := u32At endianness body 4
        let tsLow := u32At endianness body 8
        let capturedLen := (u32At endianness body 12).toNat
        let available := body.length - epbFixedOverheadBytes
        if capturedLen > available then .error .bodyTooShort
        else
          let padLen := (4 - capturedLen % 4) % 4
          if epbFixedOverheadBytes + capturedLen + padLen > body.length then .error .bodyTooShort
          else
            let (secs, usecs) := pcapngTimestampToSecsUsecs tsHigh tsLow iface.ifTsresol
            .ok ⟨secs, usecs, (body.drop epbFixedOverheadBytes).take capturedLen⟩

/-- A body: the fixed fields, the packet, its padding and the options. -/
def epbBody (e : SectionEndianness) (interfaceId : UInt32) (ticks : UInt64) (originalLen : UInt32)
    (packet options : List UInt8) : List UInt8 :=
  u32Bytes e interfaceId ++ (u32Bytes e (ticksHigh ticks) ++ (u32Bytes e (ticksLow ticks) ++
    (u32Bytes e (UInt32.ofNat packet.length) ++ (u32Bytes e originalLen ++
      (packet ++ (List.replicate (roundUp4 packet.length - packet.length) 0 ++ options))))))

/-- What the fields of a body have to be. -/
structure EpbOk (e : SectionEndianness) (interfaces : List InterfaceInfo) (body : List UInt8)
    (iface : InterfaceInfo) : Prop where
  fixed : epbFixedOverheadBytes ≤ body.length
  interface : interfaces[(u32At e body 0).toNat]? = some iface
  captured : epbFixedOverheadBytes + roundUp4 (u32At e body 12).toNat ≤ body.length

/-- The packet of such a body. -/
def epbPacket (e : SectionEndianness) (body : List UInt8) (iface : InterfaceInfo) : RawPacket :=
  let (secs, usecs) :=
    pcapngTimestampToSecsUsecs (u32At e body 4) (u32At e body 8) iface.ifTsresol
  ⟨secs, usecs, (body.drop epbFixedOverheadBytes).take (u32At e body 12).toNat⟩

theorem decodeEpbBody_eq_ok {e : SectionEndianness} {interfaces : List InterfaceInfo}
    {body : List UInt8} {packet : RawPacket} :
    decodeEpbBody body interfaces e = .ok packet ↔
      ∃ iface, EpbOk e interfaces body iface ∧ packet = epbPacket e body iface := by
  constructor
  · intro h
    unfold decodeEpbBody at h
    split at h
    · cases h
    · rename_i hfixed
      simp only at h
      split at h
      · cases h
      · split at h
        · cases h
        · rename_i iface hiface
          split at h
          · cases h
          · split at h
            · cases h
            · rename_i hpad
              cases h
              refine ⟨iface, ⟨by omega, hiface, ?_⟩, rfl⟩
              unfold roundUp4
              omega
  · rintro ⟨iface, ⟨hfixed, hiface, hcaptured⟩, rfl⟩
    have hnonempty : interfaces.isEmpty = false := by
      cases interfaces with
      | nil => cases hiface
      | cons first rest => rfl
    unfold roundUp4 at hcaptured
    simp only [decodeEpbBody, hiface, hnonempty]
    rw [if_neg (by omega), if_neg (by decide), if_neg (by omega), if_neg (by omega)]
    rfl

/-- Both decoders have the same branches. -/
theorem discriminant_toOption (body : List UInt8) (interfaces : List InterfaceInfo)
    (e : SectionEndianness) :
    (decodeEpbBodyDiscriminant body interfaces e).toOption =
      (decodeEpbBody body interfaces e).toOption := by
  unfold decodeEpbBodyDiscriminant decodeEpbBody
  split
  · rfl
  · simp only
    split
    · rfl
    · cases interfaces[(u32At e body 0).toNat]? with
      | none => rfl
      | some iface =>
        simp only
        split
        · rfl
        · split
          · rfl
          · rfl

theorem discriminant_eq_ok {e : SectionEndianness} {interfaces : List InterfaceInfo}
    {body : List UInt8} {packet : RawPacket} :
    decodeEpbBodyDiscriminant body interfaces e = .ok packet ↔
      decodeEpbBody body interfaces e = .ok packet := by
  have hsame := discriminant_toOption body interfaces e
  cases hd : decodeEpbBodyDiscriminant body interfaces e with
  | error d =>
    cases hb : decodeEpbBody body interfaces e with
    | error b =>
      constructor
      · intro h
        cases h
      · intro h
        cases h
    | ok p =>
      rw [hd, hb] at hsame
      cases hsame
  | ok p =>
    cases hb : decodeEpbBody body interfaces e with
    | error b =>
      rw [hd, hb] at hsame
      cases hsame
    | ok p' =>
      rw [hd, hb] at hsame
      cases hsame
      constructor
      · intro h
        cases h
        rfl
      · intro h
        cases h
        rfl

theorem getElem?_some_iff {interfaces : List InterfaceInfo} {i : Nat} :
    (∃ iface, interfaces[i]? = some iface) ↔ i < interfaces.length := by
  constructor
  · rintro ⟨iface, h⟩
    exact (List.getElem?_eq_some_iff.mp h).1
  · intro h
    exact ⟨_, List.getElem?_eq_getElem h⟩

/-- The fields of a body that was written, and the packet behind them. -/
theorem epbBody_fields (e : SectionEndianness) (interfaceId : UInt32) (ticks : UInt64)
    (originalLen : UInt32) (packet options : List UInt8) :
    let body := epbBody e interfaceId ticks originalLen packet options
    u32At e body 0 = interfaceId ∧ u32At e body 4 = ticksHigh ticks ∧
      u32At e body 8 = ticksLow ticks ∧ u32At e body 12 = UInt32.ofNat packet.length ∧
      body.drop 20 =
        packet ++ (List.replicate (roundUp4 packet.length - packet.length) 0 ++ options) := by
  intro body
  -- One more field falls at each multiple of four.
  have h4 : ∀ n, body.drop (n + 4) = _ := drop_field32 e interfaceId _
  have h8 : ∀ n, body.drop (n + 8) = _ := fun n =>
    (h4 (n + 4)).trans (drop_field32 e (ticksHigh ticks) _ n)
  have h12 : ∀ n, body.drop (n + 12) = _ := fun n =>
    (h8 (n + 4)).trans (drop_field32 e (ticksLow ticks) _ n)
  have h16 : ∀ n, body.drop (n + 16) = _ := fun n =>
    (h12 (n + 4)).trans (drop_field32 e (UInt32.ofNat packet.length) _ n)
  have h20 : ∀ n, body.drop (n + 20) = _ := fun n =>
    (h16 (n + 4)).trans (drop_field32 e originalLen _ n)
  exact ⟨u32At_of_drop rfl, u32At_of_drop (h4 0), u32At_of_drop (h8 0), u32At_of_drop (h12 0),
    h20 0⟩

theorem epbBody_ok {e : SectionEndianness} {interfaces : List InterfaceInfo}
    {iface : InterfaceInfo} {interfaceId : UInt32}
    (hiface : interfaces[interfaceId.toNat]? = some iface) (ticks : UInt64)
    (originalLen : UInt32) {packet : List UInt8} (hlen : packet.length < 2 ^ 32)
    (options : List UInt8) :
    EpbOk e interfaces (epbBody e interfaceId ticks originalLen packet options) iface := by
  obtain ⟨hid, -, -, hcap, -⟩ :=
    epbBody_fields e interfaceId ticks originalLen packet options
  have hlength : 20 + roundUp4 packet.length ≤
      (epbBody e interfaceId ticks originalLen packet options).length := by
    simp only [epbBody, List.length_append, length_u32Bytes, List.length_replicate, roundUp4]
    omega
  refine ⟨?_, ?_, ?_⟩
  · exact Nat.le_trans (Nat.le_add_right 20 _) hlength
  · rw [hid]
    exact hiface
  · rw [hcap, UInt32.toNat_ofNat_of_lt' hlen]
    exact hlength

theorem epbPacket_epbBody (e : SectionEndianness) (iface : InterfaceInfo) (interfaceId : UInt32)
    (ticks : UInt64) (originalLen : UInt32) {packet : List UInt8}
    (hlen : packet.length < 2 ^ 32) (options : List UInt8) :
    epbPacket e (epbBody e interfaceId ticks originalLen packet options) iface =
      ⟨(timeOf iface.ifTsresol ticks).1, (timeOf iface.ifTsresol ticks).2, packet⟩ := by
  obtain ⟨-, hhigh, hlow, hcap, hdata⟩ :=
    epbBody_fields e interfaceId ticks originalLen packet options
  simp only [epbPacket, hhigh, hlow, hcap, epbFixedOverheadBytes, hdata,
    UInt32.toNat_ofNat_of_lt' hlen, List.take_left]
  rfl

/-- What is written is read back, whatever follows the packet. A body is accepted exactly if it has
its fixed fields, a known interface and room for the padded packet, and by both decoders alike. -/
theorem epb_round_trip (e : SectionEndianness) (interfaces : List InterfaceInfo) :
    (∀ (interfaceId : UInt32) (iface : InterfaceInfo) (ticks : UInt64) (originalLen : UInt32)
      (packet options : List UInt8), interfaces[interfaceId.toNat]? = some iface →
      packet.length < 2 ^ 32 →
      decodeEpbBody (epbBody e interfaceId ticks originalLen packet options) interfaces e =
        .ok ⟨(timeOf iface.ifTsresol ticks).1, (timeOf iface.ifTsresol ticks).2, packet⟩) ∧
    ∀ body : List UInt8,
      ((∃ packet, decodeEpbBody body interfaces e = .ok packet) ↔
        20 ≤ body.length ∧ (u32At e body 0).toNat < interfaces.length ∧
          20 + roundUp4 (u32At e body 12).toNat ≤ body.length) ∧
      ∀ packet, decodeEpbBodyDiscriminant body interfaces e = .ok packet ↔
        decodeEpbBody body interfaces e = .ok packet := by
  refine ⟨?_, fun body => ⟨?_, fun packet => discriminant_eq_ok⟩⟩
  · intro interfaceId iface ticks originalLen packet options hiface hlen
    exact decodeEpbBody_eq_ok.mpr ⟨iface, epbBody_ok hiface ticks originalLen hlen options,
      (epbPacket_epbBody e iface interfaceId ticks originalLen hlen options).symm⟩
  · constructor
    · rintro ⟨packet, hok⟩
      obtain ⟨iface, ⟨hfixed, hiface, hcaptured⟩, -⟩ := decodeEpbBody_eq_ok.mp hok
      exact ⟨hfixed, getElem?_some_iff.mp ⟨iface, hiface⟩, hcaptured⟩
    · rintro ⟨hfixed, hid, hcaptured⟩
      obtain ⟨iface, hiface⟩ := getElem?_some_iff.mpr hid
      exact ⟨_, decodeEpbBody_eq_ok.mpr ⟨iface, ⟨hfixed, hiface, hcaptured⟩, rfl⟩⟩

/-! ## The options of an Interface Description Block -/

/-- An option as its header shows it: the code, the length that is declared, and the bytes after
the header. -/
structure OptionView where
  code : UInt16
  length : Nat
  rest : List UInt8

namespace OptionView

/-- The value is longer than what is there, or a resolution is not one byte. -/
def Malformed (o : OptionView) : Prop := o.rest.length < o.length ∨ (o.code = 9 ∧ o.length ≠ 1)

/-- The resolution of the time. -/
def IsTsresol (o : OptionView) : Prop := o.code = 9 ∧ ¬ o.Malformed

end OptionView

/-- The options of a region, from left to right until code 0 or until a header does not fit. -/
inductive Options (e : SectionEndianness) : List UInt8 → List OptionView → Prop
  | short {region : List UInt8} (h : region.length < 4) : Options e region []
  | endOfOpt {region : List UInt8} (h : 4 ≤ region.length) (hcode : u16At e region 0 = 0) :
      Options e region []
  | option {region : List UInt8} {opts : List OptionView} (h : 4 ≤ region.length)
      (hcode : u16At e region 0 ≠ 0)
      (hrest : Options e (region.drop (4 + roundUp4 (u16At e region 2).toNat)) opts) :
      Options e region (⟨u16At e region 0, (u16At e region 2).toNat, region.drop 4⟩ :: opts)

theorem Options.exists (e : SectionEndianness) (region : List UInt8) :
    ∃ opts, Options e region opts := by
  induction hn : region.length using Nat.strongRecOn generalizing region with
  | _ n ih =>
    by_cases hlen : region.length < 4
    · exact ⟨[], .short hlen⟩
    · by_cases hcode : u16At e region 0 = 0
      · exact ⟨[], .endOfOpt (by omega) hcode⟩
      · obtain ⟨opts, hopts⟩ := ih
          (region.drop (4 + roundUp4 (u16At e region 2).toNat)).length
          (by simp only [List.length_drop]; omega) _ rfl
        exact ⟨_, .option (by omega) hcode hopts⟩

theorem Options.unique {e : SectionEndianness} {region : List UInt8} {opts opts' : List OptionView}
    (h : Options e region opts) (h' : Options e region opts') : opts = opts' := by
  induction h generalizing opts' with
  | short hlen =>
    cases h' with
    | short _ => rfl
    | endOfOpt _ _ => rfl
    | option hlen' _ _ => omega
  | endOfOpt _ hcode =>
    cases h' with
    | short _ => rfl
    | endOfOpt _ _ => rfl
    | option _ hcode' _ => exact absurd hcode hcode'
  | option hlen hcode _ ih =>
    cases h' with
    | short hlen' => omega
    | endOfOpt _ hcode' => exact absurd hcode' hcode
    | option _ _ hrest' => rw [ih hrest']

/-- Some option is malformed, and no resolution is before it. -/
def Malformed (opts : List OptionView) : Prop :=
  ∃ before o after, opts = before ++ o :: after ∧ (∀ b ∈ before, ¬ b.IsTsresol) ∧ o.Malformed

/-- The value of the first option with code 9. -/
def tsresolOf (opts : List OptionView) : UInt8 :=
  match opts.find? (fun o => o.code = 9) with
  | none => defaultTsresol
  | some o => o.rest.getD 0 0

/-- The option at the cursor overruns the region. -/
def optionOverrun (code : UInt16) (length left : Nat) : String :=
  "IDB options TLV overrun: option code " ++ toString code ++ " declares length " ++
    toString length ++ " but only " ++ toString left ++
    " bytes remain in the options region (E-INP-008: malformed IDB options TLV)"

def tsresolLength (length : Nat) : String :=
  "IDB if_tsresol option (code 9) has option_length=" ++ toString length ++
    ", expected 1 (E-INP-008: malformed if_tsresol TLV; F-M5 / ADR-009 rev 9)"

/-- What the walk makes of the options it meets. -/
def resolution : List OptionView → Except Error UInt8
  | [] => .ok defaultTsresol
  | o :: opts =>
    if o.length > o.rest.length then fail (optionOverrun o.code o.length o.rest.length)
    else if o.code = 9 then
      if o.length ≠ 1 then fail (tsresolLength o.length) else .ok (o.rest.getD 0 0)
    else resolution opts

theorem padded_eq (n : Nat) : (n + 3) / 4 * 4 = roundUp4 n := by
  unfold roundUp4
  omega

theorem walkOptions_eq {e : SectionEndianness} {region : List UInt8} {opts : List OptionView}
    (h : Options e region opts) {turns : Nat} (hturns : region.length ≤ turns) :
    walkOptions e turns region = resolution opts := by
  induction h generalizing turns with
  | short hlen =>
    cases turns with
    | zero => rfl
    | succ turns => simp only [walkOptions, hlen, if_true, resolution]
  | endOfOpt hlen hcode =>
    cases turns with
    | zero => rfl
    | succ turns =>
      simp only [walkOptions, hcode, if_true, ite_self, resolution]
  | @option region opts hlen hcode _ ih =>
    cases turns with
    | zero => omega
    | succ turns =>
      have hshort : ¬ region.length < 4 := by omega
      simp only [walkOptions, if_neg hshort, if_neg hcode, resolution]
      rw [List.drop_drop, padded_eq, ih (by simp only [List.length_drop]; omega)]
      rfl

/-! ## The cursor -/

/-- The two bytes of a field. -/
def wordOf (e : SectionEndianness) (first second : UInt8) : UInt16 :=
  match e with
  | .bigEndian => beU16 first second
  | .littleEndian => leU16 first second

/-- The loop of the source with its cursor, where every index is checked. There is no result yet if
the turns run out. -/
def optionLoop (e : SectionEndianness) (remaining : List UInt8) :
    Nat → Nat → Checked (Option (Except Error UInt8))
  | 0, _ => .ok none
  | turns + 1, cursor =>
    if cursor + 4 > remaining.length then .ok (some (.ok defaultTsresol))
    else do
      let code0 ← indexAt remaining cursor
      let code1 ← indexAt remaining (cursor + 1)
      let len0 ← indexAt remaining (cursor + 2)
      let len1 ← indexAt remaining (cursor + 3)
      let optCode := wordOf e code0 code1
      let optLen := (wordOf e len0 len1).toNat
      let cursor := cursor + 4
      if optCode = 0 then .ok (some (.ok defaultTsresol))
      else if cursor + optLen > remaining.length then
        .ok (some (fail (optionOverrun optCode optLen (remaining.length - cursor))))
      else if optCode = 9 then
        if optLen ≠ 1 then .ok (some (fail (tsresolLength optLen)))
        else do
          let value ← indexAt remaining cursor
          .ok (some (.ok value))
      else optionLoop e remaining turns (cursor + (optLen + 3) / 4 * 4)

def parseIdbOptionsChecked (turns : Nat) (body : List UInt8) (e : SectionEndianness) :
    Checked (Option (Except Error UInt8)) :=
  if body.length > idbBodyFixedBytes then do
    let opts ← slice body idbBodyFixedBytes body.length
    optionLoop e opts turns 0
  else .ok (some (.ok defaultTsresol))

theorem indexAt_of_lt {xs : List UInt8} {i : Nat} (h : i < xs.length) :
    indexAt xs i = .ok (xs.getD i 0) := by
  apply indexAt_of_some
  rw [List.getD_eq_getElem?_getD, List.getElem?_eq_getElem h, Option.getD_some]

/-- One turn, with the header read from what is left of the region. -/
theorem optionLoop_succ {e : SectionEndianness} {remaining : List UInt8} {cursor : Nat}
    (h : 4 ≤ (remaining.drop cursor).length) (turns : Nat) :
    optionLoop e remaining (turns + 1) cursor =
      let o : OptionView := ⟨u16At e (remaining.drop cursor) 0,
        (u16At e (remaining.drop cursor) 2).toNat, (remaining.drop cursor).drop 4⟩
      if o.code = 0 then .ok (some (.ok defaultTsresol))
      else if o.length > o.rest.length then
        .ok (some (fail (optionOverrun o.code o.length o.rest.length)))
      else if o.code = 9 then
        if o.length ≠ 1 then .ok (some (fail (tsresolLength o.length)))
        else .ok (some (.ok (o.rest.getD 0 0)))
      else optionLoop e remaining turns (cursor + 4 + roundUp4 o.length) := by
  simp only [List.length_drop] at h
  have hfits : ¬ cursor + 4 > remaining.length := by omega
  have hover : ∀ n, cursor + 4 + n > remaining.length ↔
      n > ((remaining.drop cursor).drop 4).length := by
    intro n
    simp only [List.length_drop]
    omega
  have hleft : remaining.length - (cursor + 4) = ((remaining.drop cursor).drop 4).length := by
    simp only [List.length_drop]
    omega
  have hvalue : ((remaining.drop cursor).drop 4).getD 0 0 = remaining.getD (cursor + 4) 0 := by
    simp only [List.drop_drop, List.getD_eq_getElem?_getD, List.getElem?_drop, Nat.add_zero]
  have hcode : u16At e (remaining.drop cursor) 0 =
      wordOf e (remaining.getD cursor 0) (remaining.getD (cursor + 1) 0) :=
    u16At_drop e remaining cursor 0
  have hlen : u16At e (remaining.drop cursor) 2 =
      wordOf e (remaining.getD (cursor + 2) 0) (remaining.getD (cursor + 3) 0) :=
    u16At_drop e remaining cursor 2
  rw [optionLoop, if_neg hfits, indexAt_of_lt (by omega), Lib.ok_bind, indexAt_of_lt (by omega),
    Lib.ok_bind, indexAt_of_lt (by omega), Lib.ok_bind, indexAt_of_lt (by omega), Lib.ok_bind,
    hcode, hlen]
  generalize wordOf e (remaining.getD cursor 0) (remaining.getD (cursor + 1) 0) = code
  generalize wordOf e (remaining.getD (cursor + 2) 0) (remaining.getD (cursor + 3) 0) = len
  simp only [hover, hleft, padded_eq]
  split
  · rfl
  · split
    · rfl
    · rename_i hroom
      split
      · by_cases hone : len.toNat ≠ 1
        · rw [if_pos hone, if_pos hone]
        · have hat : cursor + 4 < remaining.length := by
            simp only [List.length_drop] at hroom
            omega
          rw [if_neg hone, if_neg hone, indexAt_of_lt hat, Lib.ok_bind, hvalue]
      · rfl

theorem optionLoop_eq {e : SectionEndianness} {remaining region : List UInt8}
    {opts : List OptionView} (h : Options e region opts) {cursor turns : Nat}
    (hregion : region = remaining.drop cursor) (hturns : region.length < turns) :
    optionLoop e remaining turns cursor = .ok (some (resolution opts)) := by
  induction h generalizing cursor turns with
  | short hlen =>
    cases turns with
    | zero => omega
    | succ turns =>
      rw [hregion, List.length_drop] at hlen
      rw [optionLoop, if_pos (by omega)]
      rfl
  | endOfOpt hlen hcode =>
    cases turns with
    | zero => omega
    | succ turns =>
      subst hregion
      rw [optionLoop_succ hlen]
      simp only [hcode, if_true, resolution]
  | option hlen hcode _ ih =>
    cases turns with
    | zero => omega
    | succ turns =>
      subst hregion
      rw [optionLoop_succ hlen]
      simp only [if_neg hcode, resolution]
      rw [ih (by rw [List.drop_drop, Nat.add_assoc]) (by simp only [List.length_drop] at *; omega)]
      split
      · rfl
      · split
        · split
          · rfl
          · rfl
        · rfl

/-! ## The grammar and the walk -/

theorem malformed_cons (o : OptionView) (opts : List OptionView) :
    Malformed (o :: opts) ↔ o.Malformed ∨ (¬ o.IsTsresol ∧ Malformed opts) := by
  constructor
  · rintro ⟨before, o', after, hopts, hbefore, hbad⟩
    cases before with
    | nil =>
      cases hopts
      exact .inl hbad
    | cons b before =>
      cases hopts
      refine .inr ⟨hbefore o List.mem_cons_self, before, o', after, rfl, ?_, hbad⟩
      intro b hb
      exact hbefore b (List.mem_cons_of_mem o hb)
  · rintro (hbad | ⟨ho, before, o', after, rfl, hbefore, hbad⟩)
    · exact ⟨[], o, opts, rfl, fun b hb => absurd hb List.not_mem_nil, hbad⟩
    · refine ⟨o :: before, o', after, rfl, ?_, hbad⟩
      intro b hb
      rcases List.mem_cons.mp hb with rfl | hb
      · exact ho
      · exact hbefore b hb

theorem not_malformed_nil : ¬ Malformed [] := by
  rintro ⟨before, o, after, hopts, -⟩
  cases before <;> cases hopts

/-- The walk over one more option. -/
theorem resolution_cons (o : OptionView) (opts : List OptionView) :
    (o.Malformed → ∃ err, resolution (o :: opts) = .error err) ∧
    (o.IsTsresol → resolution (o :: opts) = .ok (o.rest.getD 0 0)) ∧
    (¬ o.Malformed → ¬ o.IsTsresol → resolution (o :: opts) = resolution opts) := by
  rw [resolution]
  unfold OptionView.IsTsresol OptionView.Malformed
  by_cases hover : o.length > o.rest.length
  · rw [if_pos hover]
    refine ⟨fun _ => ⟨_, rfl⟩, fun h => absurd (.inl hover) h.2, fun h => absurd (.inl hover) h⟩
  · rw [if_neg hover]
    by_cases hcode : o.code = 9
    · rw [if_pos hcode]
      by_cases hone : o.length ≠ 1
      · rw [if_pos hone]
        exact ⟨fun _ => ⟨_, rfl⟩, fun h => absurd (.inr ⟨hcode, hone⟩) h.2,
          fun h => absurd (.inr ⟨hcode, hone⟩) h⟩
      · rw [if_neg hone]
        refine ⟨fun h => ?_, fun _ => rfl, fun h h' => absurd ⟨hcode, h⟩ h'⟩
        rcases h with h | h
        · exact absurd h hover
        · exact absurd h.2 hone
    · rw [if_neg hcode]
      refine ⟨fun h => ?_, fun h => absurd h.1 hcode, fun _ _ => rfl⟩
      rcases h with h | h
      · exact absurd h hover
      · exact absurd h.1 hcode

theorem tsresolOf_cons_of_code {o : OptionView} (h : o.code = 9) (opts : List OptionView) :
    tsresolOf (o :: opts) = o.rest.getD 0 0 := by
  rw [tsresolOf, List.find?_cons_of_pos (by simpa using h)]

theorem tsresolOf_cons_of_ne {o : OptionView} (h : o.code ≠ 9) (opts : List OptionView) :
    tsresolOf (o :: opts) = tsresolOf opts := by
  rw [tsresolOf, List.find?_cons_of_neg (by simpa using h)]
  rfl

theorem resolution_spec (opts : List OptionView) :
    (Malformed opts → ∃ err, resolution opts = .error err) ∧
    (¬ Malformed opts → resolution opts = .ok (tsresolOf opts)) := by
  induction opts with
  | nil => exact ⟨fun h => absurd h not_malformed_nil, fun _ => rfl⟩
  | cons o opts ih =>
    obtain ⟨hbad, htsresol, hskip⟩ := resolution_cons o opts
    rw [malformed_cons]
    by_cases ho : o.Malformed
    · exact ⟨fun _ => hbad ho, fun h => absurd (.inl ho) h⟩
    · by_cases hcode : o.code = 9
      · have hts : o.IsTsresol := ⟨hcode, ho⟩
        rw [htsresol hts, tsresolOf_cons_of_code hcode]
        refine ⟨fun h => ?_, fun _ => rfl⟩
        rcases h with h | h
        · exact absurd h ho
        · exact absurd hts h.1
      · have hts : ¬ o.IsTsresol := fun h => hcode h.1
        rw [hskip ho hts, tsresolOf_cons_of_ne hcode]
        refine ⟨fun h => ?_, fun h => ih.2 fun h' => h (.inr ⟨hts, h'⟩)⟩
        rcases h with h | h
        · exact absurd h ho
        · exact ih.1 h.2

/-- There are no options in a body that has its fixed fields only. -/
theorem Options.of_fixed {e : SectionEndianness} {body : List UInt8}
    (h : ¬ body.length > idbBodyFixedBytes) : Options e (body.drop 8) [] := by
  refine .short ?_
  unfold idbBodyFixedBytes at h
  rw [List.length_drop]
  omega

/-- A body is walked as its options say. -/
theorem parseIdbOptions_eq {e : SectionEndianness} {body : List UInt8} {opts : List OptionView}
    (h : Options e (body.drop 8) opts) : parseIdbOptions body e = resolution opts := by
  unfold parseIdbOptions
  by_cases hlen : body.length > idbBodyFixedBytes
  · rw [if_pos hlen]
    exact walkOptions_eq h (Nat.le_refl _)
  · rw [if_neg hlen, h.unique (Options.of_fixed hlen)]
    rfl

theorem parseIdbOptionsChecked_eq (e : SectionEndianness) (body : List UInt8) {turns : Nat}
    (h : body.length < turns + 8) :
    parseIdbOptionsChecked turns body e = .ok (some (parseIdbOptions body e)) := by
  obtain ⟨opts, hopts⟩ := Options.exists e (body.drop 8)
  rw [parseIdbOptions_eq hopts, parseIdbOptionsChecked]
  by_cases hlen : body.length > idbBodyFixedBytes
  · rw [if_pos hlen, slice_of_le (Nat.le_of_lt hlen) (Nat.le_refl _), Lib.ok_bind, List.take_length]
    refine optionLoop_eq hopts rfl ?_
    simp only [idbBodyFixedBytes, List.length_drop] at *
    omega
  · rw [if_neg hlen, hopts.unique (Options.of_fixed hlen)]
    rfl

/-! ## Options that were written -/

/-- An option with its value and with what takes it to a multiple of four. -/
structure IdbOption where
  code : UInt16
  value : List UInt8
  padding : List UInt8
  fits : value.length < 2 ^ 16
  aligned : value.length + padding.length = roundUp4 value.length

def IdbOption.bytes (e : SectionEndianness) (o : IdbOption) : List UInt8 :=
  u16Bytes e o.code ++ (u16Bytes e (UInt16.ofNat o.value.length) ++ (o.value ++ o.padding))

theorem IdbOption.options {e : SectionEndianness} {o : IdbOption} (hcode : o.code ≠ 0)
    {region : List UInt8} {opts : List OptionView} (h : Options e region opts) :
    Options e (o.bytes e ++ region)
      (⟨o.code, o.value.length, o.value ++ o.padding ++ region⟩ :: opts) := by
  have hregion : o.bytes e ++ region = u16Bytes e o.code ++
      (u16Bytes e (UInt16.ofNat o.value.length) ++ (o.value ++ o.padding ++ region)) := by
    simp only [IdbOption.bytes, List.append_assoc]
  have hat : u16At e (o.bytes e ++ region) 0 = o.code := by
    rw [hregion, u16At_bytes]
  have hdrop2 : (o.bytes e ++ region).drop 2 =
      u16Bytes e (UInt16.ofNat o.value.length) ++ (o.value ++ o.padding ++ region) := by
    rw [hregion, drop_field]
  have hdrop4 : (o.bytes e ++ region).drop 4 = o.value ++ o.padding ++ region := by
    rw [show 4 = 2 + 2 from rfl, ← List.drop_drop, hdrop2, drop_field]
  have hlen : (u16At e (o.bytes e ++ region) 2).toNat = o.value.length := by
    rw [u16At_of_drop hdrop2, UInt16.toNat_ofNat_of_lt' o.fits]
  have hnext : (o.bytes e ++ region).drop (4 + roundUp4 o.value.length) = region := by
    rw [← List.drop_drop, hdrop4]
    exact List.drop_left' (by rw [List.length_append, o.aligned])
  have hfour : 4 ≤ (o.bytes e ++ region).length := by
    simp only [hregion, List.length_append, length_u16Bytes]
    omega
  rw [← hdrop4, ← hlen, ← hat]
  refine .option hfour (by rw [hat]; exact hcode) ?_
  rw [hlen, hnext]
  exact h

/-- Before an option that tells the resolution there may be any others. -/
theorem resolution_after {e : SectionEndianness} {before : List IdbOption}
    (hbefore : ∀ o ∈ before, o.code ≠ 0 ∧ o.code ≠ 9) {region : List UInt8}
    {opts : List OptionView} (h : Options e region opts) :
    ∃ opts', Options e (before.flatMap (IdbOption.bytes e) ++ region) opts' ∧
      resolution opts' = resolution opts := by
  induction before with
  | nil => exact ⟨opts, h, rfl⟩
  | cons o before ih =>
    obtain ⟨hzero, hnine⟩ := hbefore o List.mem_cons_self
    obtain ⟨opts', hopts', hsame⟩ := ih fun b hb => hbefore b (List.mem_cons_of_mem o hb)
    rw [List.flatMap_cons, List.append_assoc]
    refine ⟨_, IdbOption.options hzero hopts', ?_⟩
    refine ((resolution_cons _ opts').2.2 ?_ (fun ho => hnine ho.1)).trans hsame
    rintro (hover | ⟨hcode, -⟩)
    · simp only [List.length_append] at hover
      omega
    · exact hnine hcode

/-- The resolution that is inserted is the one that is found, whatever the other options are. -/
theorem parseIdbOptions_inserted {e : SectionEndianness} {fixed : List UInt8}
    (hfixed : fixed.length = 8) {before : List IdbOption}
    (hbefore : ∀ o ∈ before, o.code ≠ 0 ∧ o.code ≠ 9) {tsresol : IdbOption} {value : UInt8}
    (hcode : tsresol.code = 9) (hvalue : tsresol.value = [value]) (rest : List UInt8) :
    parseIdbOptions (fixed ++ (before.flatMap (IdbOption.bytes e) ++ (tsresol.bytes e ++ rest))) e =
      .ok value := by
  obtain ⟨later, hlater⟩ := Options.exists e rest
  have hzero : tsresol.code ≠ 0 := by
    rw [hcode]
    decide
  obtain ⟨opts, hopts, hsame⟩ := resolution_after hbefore (IdbOption.options hzero hlater)
  have hdrop : (fixed ++ (before.flatMap (IdbOption.bytes e) ++ (tsresol.bytes e ++ rest))).drop 8 =
      before.flatMap (IdbOption.bytes e) ++ (tsresol.bytes e ++ rest) := List.drop_left' hfixed
  rw [← hdrop] at hopts
  rw [parseIdbOptions_eq hopts, hsame]
  refine ((resolution_cons _ later).2.1 ⟨hcode, ?_⟩).trans ?_
  · rintro (hover | ⟨-, hone⟩)
    · simp only [List.length_append] at hover
      omega
    · rw [hvalue] at hone
      exact hone rfl
  · simp only [hvalue]
    rfl

/-- The walk over the options of a body of eight bytes or more. It gives an error exactly if some
option is malformed before the end and before a resolution, and the first resolution otherwise, it
comes to its end, and no index of it is out of range. So a resolution put anywhere among other
options is found. -/
theorem options_follow_grammar (e : SectionEndianness) :
    (∀ body : List UInt8, 8 ≤ body.length →
      (∃ opts, Options e (body.drop 8) opts ∧
        (∀ opts', Options e (body.drop 8) opts' → opts' = opts) ∧
        ((∃ err, parseIdbOptions body e = .error err) ↔ Malformed opts) ∧
        (¬ Malformed opts → parseIdbOptions body e = .ok (tsresolOf opts))) ∧
      ∀ turns, body.length < turns + 8 →
        parseIdbOptionsChecked turns body e = .ok (some (parseIdbOptions body e))) ∧
    ∀ (fixed : List UInt8) (before after : List IdbOption) (tsresol : IdbOption) (value : UInt8)
      (tail : List UInt8), fixed.length = 8 →
      (∀ o ∈ before ++ after, o.code ≠ 0 ∧ o.code ≠ 9) →
      tsresol.code = 9 → tsresol.value = [value] →
      parseIdbOptions
        (fixed ++ ((before ++ tsresol :: after).flatMap (IdbOption.bytes e) ++ tail)) e =
          .ok value := by
  refine ⟨fun body _ => ⟨?_, fun turns hturns => parseIdbOptionsChecked_eq e body hturns⟩, ?_⟩
  · obtain ⟨opts, hopts⟩ := Options.exists e (body.drop 8)
    obtain ⟨hbad, hgood⟩ := resolution_spec opts
    refine ⟨opts, hopts, fun opts' hopts' => hopts'.unique hopts, ?_, ?_⟩
    · rw [parseIdbOptions_eq hopts]
      refine ⟨fun ⟨err, herr⟩ => ?_, hbad⟩
      by_contra hno
      rw [hgood hno] at herr
      cases herr
    · rw [parseIdbOptions_eq hopts]
      exact hgood
  · intro fixed before after tsresol value tail hfixed hothers hcode hvalue
    have hbefore : ∀ o ∈ before, o.code ≠ 0 ∧ o.code ≠ 9 := fun o ho =>
      hothers o (List.mem_append_left after ho)
    have hfound := parseIdbOptions_inserted (e := e) hfixed hbefore hcode hvalue
      (after.flatMap (IdbOption.bytes e) ++ tail)
    simpa only [List.flatMap_append, List.flatMap_cons, List.append_assoc] using hfound

end Wirerust.Capture
