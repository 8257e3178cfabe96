import Wirerust.Analyzer.S7commSession

/-!
The grammar of the COTP headers that `parse_cotp_header` accepts, and what they do to a flow.

A TPDU is a length indicator, a code, a variable part and user data, and the indicator counts the
code and the variable part (`Tpdu.bytes`). Whatever is accepted is one of these, or its length
indicator is 0: then the code is taken for the first byte of the user data as well
(`parseCotpHeader_eq_some`). So the class of a flow comes from user data or from a frame of the
second kind (`onData_latches`).
-/

namespace Wirerust.S7comm

open Lib Wirerust.Flow Wirerust.Analyzer

/-! ## The grammar -/

/-- The type of a TPDU is the upper half of its code. -/
def tpduType (code : UInt8) : Option CotpTpduType :=
  if code &&& 0xf0 = 0xe0 then some .connectRequest
  else if code &&& 0xf0 = 0xd0 then some .connectConfirm
  else if code &&& 0xf0 = 0xf0 then some .dataTransfer
  else none

/-- The header of a TPDU with its payload at `offset`; only a data TPDU has a protocol byte. -/
def cotpHeader (code : UInt8) (offset : Nat) (first : Option UInt8) : Option CotpHeader :=
  (tpduType code).map fun kind => ⟨kind, if kind = .dataTransfer then first else none, offset⟩

structure Tpdu where
  code : UInt8
  variablePart : List UInt8
  userData : List UInt8
  short : variablePart.length ≤ 254

namespace Tpdu

def bytes (t : Tpdu) : List UInt8 :=
  UInt8.ofNat (1 + t.variablePart.length) :: t.code :: (t.variablePart ++ t.userData)

def header (t : Tpdu) : Option CotpHeader :=
  cotpHeader t.code (2 + t.variablePart.length) t.userData.head?

end Tpdu

theorem parseCotpHeader_of_short {tpktPayload : List UInt8} (h : tpktPayload.length < 2) :
    parseCotpHeader tpktPayload = none := by
  rw [parseCotpHeader, if_pos h]

theorem parseCotpHeader_cons (li code : UInt8) (rest : List UInt8) :
    parseCotpHeader (li :: code :: rest) =
      if li.toNat ≤ rest.length + 1 then
        cotpHeader code (1 + li.toNat) (li :: code :: rest)[1 + li.toNat]?
      else none := by
  have hli : byteAt (li :: code :: rest) 0 = li := rfl
  have hcode : byteAt (li :: code :: rest) 1 = code := rfl
  have hlen : (li :: code :: rest).length = rest.length + 2 := rfl
  have hfirst : (if (li :: code :: rest).length > 1 + li.toNat then
      some (byteAt (li :: code :: rest) (1 + li.toNat)) else none) =
        (li :: code :: rest)[1 + li.toNat]? := by
    split
    · rename_i hlt
      exact (getElem?_eq_byteAt hlt).symm
    · rename_i hge
      exact (List.getElem?_eq_none (Nat.le_of_not_lt hge)).symm
  rw [parseCotpHeader, if_neg (by rw [hlen]; omega)]
  simp only [hli, hcode, hfirst]
  by_cases hfits : li.toNat ≤ rest.length + 1
  · rw [if_pos hfits, if_neg (by rw [hlen]; omega), cotpHeader, tpduType]
    split
    · rfl
    · split
      · rfl
      · split
        · rfl
        · rfl
  · rw [if_neg hfits, if_pos (by rw [hlen]; omega)]

theorem parseCotpHeader_bytes (t : Tpdu) : parseCotpHeader t.bytes = t.header := by
  have hshort := t.short
  have hli : (UInt8.ofNat (1 + t.variablePart.length)).toNat = 1 + t.variablePart.length := by
    rw [UInt8.toNat_ofNat']
    omega
  have hlen : (t.variablePart ++ t.userData).length =
      t.variablePart.length + t.userData.length := List.length_append
  rw [Tpdu.bytes, parseCotpHeader_cons, hli, if_pos (by omega), Tpdu.header,
    show 1 + (1 + t.variablePart.length) = t.variablePart.length + 1 + 1 by omega,
    List.getElem?_cons_succ, List.getElem?_cons_succ,
    List.getElem?_append_right (Nat.le_refl _), Nat.sub_self, ← List.head?_eq_getElem?,
    show t.variablePart.length + 1 + 1 = 2 + t.variablePart.length by omega]

/-- A length indicator of 0 leaves not even the code to the header. -/
theorem parseCotpHeader_zero (code : UInt8) (rest : List UInt8) :
    parseCotpHeader (0 :: code :: rest) = cotpHeader code 1 (some code) := by
  have hfits : (0 : UInt8).toNat ≤ rest.length + 1 := Nat.zero_le _
  rw [parseCotpHeader_cons, if_pos hfits]
  rfl

theorem exists_tpdu (code : UInt8) {li : UInt8} {rest : List UInt8} (hpos : li ≠ 0)
    (hfits : li.toNat ≤ rest.length + 1) : ∃ t : Tpdu, t.bytes = li :: code :: rest := by
  have hlt := li.toNat_lt
  have hpos' : 0 < li.toNat := by
    refine Nat.pos_of_ne_zero fun hzero => hpos ?_
    exact UInt8.toNat_inj.mp hzero
  have htake : (rest.take (li.toNat - 1)).length = li.toNat - 1 := by
    rw [List.length_take]
    omega
  refine ⟨⟨code, rest.take (li.toNat - 1), rest.drop (li.toNat - 1), by omega⟩, ?_⟩
  have hli : UInt8.ofNat (1 + (li.toNat - 1)) = li := by
    rw [show 1 + (li.toNat - 1) = li.toNat by omega, UInt8.ofNat_toNat]
  simp only [Tpdu.bytes, htake, hli, List.take_append_drop]

theorem parseCotpHeader_eq_some {tpktPayload : List UInt8} {header : CotpHeader}
    (h : parseCotpHeader tpktPayload = some header) :
    (∃ t : Tpdu, t.bytes = tpktPayload ∧ t.header = some header) ∨
      ∃ code rest, tpktPayload = 0 :: code :: rest ∧
        cotpHeader code 1 (some code) = some header := by
  match tpktPayload, h with
  | [], h =>
    rw [parseCotpHeader_of_short (by decide)] at h
    cases h
  | [b], h =>
    have hshort : [b].length < 2 := Nat.lt_succ_self 1
    rw [parseCotpHeader_of_short hshort] at h
    cases h
  | li :: code :: rest, h =>
    by_cases hzero : li = 0
    · subst hzero
      rw [parseCotpHeader_zero] at h
      exact .inr ⟨code, rest, rfl, h⟩
    · have hfits : li.toNat ≤ rest.length + 1 := by
        rw [parseCotpHeader_cons] at h
        split at h
        · assumption
        · cases h
      obtain ⟨t, ht⟩ := exists_tpdu code hzero hfits
      rw [← ht, parseCotpHeader_bytes] at h
      exact .inl ⟨t, ht, h⟩

/-! ## What classifies a flow -/

/-- A data frame whose user data begins with a byte of class `p`, or one without a header. -/
inductive Latches (p : S7Protocol) (tpktPayload : List UInt8) : Prop
  | userData (t : Tpdu) (b : UInt8) (hbytes : t.bytes = tpktPayload)
      (hdata : tpduType t.code = some .dataTransfer) (hfirst : t.userData.head? = some b)
      (hclass : p = protocolClass b)
  | headless (code : UInt8) (rest : List UInt8) (hbytes : tpktPayload = 0 :: code :: rest)
      (hdata : tpduType code = some .dataTransfer) (hclass : p = .unclassified)

theorem cotpHeader_protocolId {code b : UInt8} {offset : Nat} {first : Option UInt8}
    {header : CotpHeader} (h : cotpHeader code offset first = some header)
    (hid : header.protocolId = some b) :
    tpduType code = some .dataTransfer ∧ first = some b := by
  obtain ⟨kind, hkind, rfl⟩ := Option.map_eq_some_iff.mp h
  simp only at hid
  split at hid
  · rename_i hdata
    exact ⟨hdata ▸ hkind, hid⟩
  · cases hid

/-- The code of a data TPDU is none of the two protocol bytes. -/
theorem protocolClass_of_data {code : UInt8} (h : tpduType code = some .dataTransfer) :
    protocolClass code = .unclassified := by
  have hhigh : code &&& 0xf0 = 0xf0 := by
    unfold tpduType at h
    split at h
    · cases h
    · split at h
      · cases h
      · split at h
        · assumption
        · cases h
  rw [protocolClass, if_neg, if_neg]
  · rintro rfl
    exact absurd hhigh (by decide)
  · rintro rfl
    exact absurd hhigh (by decide)

/-- The protocol byte of a frame. -/
def frameByte (tpktPayload : List UInt8) : Option UInt8 :=
  protocolByte (.clientToServer, kindOf tpktPayload)

theorem protocolByte_kindOf (dir : Direction) (tpktPayload : List UInt8) :
    protocolByte (dir, kindOf tpktPayload) = frameByte tpktPayload := by
  unfold frameByte
  cases kindOf tpktPayload <;> rfl

theorem latches_of_frameByte {tpktPayload : List UInt8} {b : UInt8}
    (h : frameByte tpktPayload = some b) : Latches (protocolClass b) tpktPayload := by
  unfold frameByte kindOf at h
  cases hheader : parseCotpHeader tpktPayload with
  | none =>
    rw [hheader] at h
    cases h
  | some header =>
    have hid : header.protocolId = some b := by
      rw [hheader] at h
      simp only at h
      split at h
      · cases h
      · cases h
      · exact h
    rcases parseCotpHeader_eq_some hheader with ⟨t, ht, hparsed⟩ | ⟨code, rest, hbytes, hparsed⟩
    · obtain ⟨hdata, hfirst⟩ := cotpHeader_protocolId hparsed hid
      exact .userData t b ht hdata hfirst rfl
    · obtain ⟨hdata, hfirst⟩ := cotpHeader_protocolId hparsed hid
      rw [← Option.some.inj hfirst]
      exact .headless code rest hbytes hdata (protocolClass_of_data hdata)

/-- The frames that a call finds in the carry and the new bytes. -/
def framesOf (buf : List UInt8) : List (List UInt8) :=
  (pieceLexer.lex buf).1.filterMap fun piece =>
    match piece with
    | .skip => none
    | .frame bytes => some bytes

/-- A class is for good. -/
theorem raises_sticky (c : Delivery) {flow : S7commFlowState} (ps : List Piece) {p : S7Protocol}
    (hclass : flow.classifiedProtocol = some p) :
    (raises c flow ps).1.classifiedProtocol = some p := by
  refine emits_keeps (I := fun mid : S7commFlowState => mid.classifiedProtocol = some p)
    (fun mid piece h => ?_) ps hclass
  cases piece with
  | skip => exact h
  | frame bytes =>
    rw [pieceEffect, (frameEffect_step c mid (bytes.drop 4)).classified_eq, h, Option.some_or]

theorem raises_latches (c : Delivery) (flow : S7commFlowState) (ps : List Piece)
    {p : S7Protocol} (hfresh : flow.classifiedProtocol = none)
    (hclass : (raises c flow ps).1.classifiedProtocol = some p) :
    ∃ bytes, Piece.frame bytes ∈ ps ∧ Latches p (bytes.drop 4) := by
  induction ps generalizing flow with
  | nil =>
    rw [raises, emits_nil, hfresh] at hclass
    cases hclass
  | cons piece ps ih =>
    rw [raises, emits_cons, Effect.andThen] at hclass
    cases piece with
    | skip =>
      obtain ⟨bytes, hmem, hlatches⟩ := ih flow hfresh hclass
      exact ⟨bytes, List.mem_cons_of_mem _ hmem, hlatches⟩
    | frame bytes =>
      have hstep := (frameEffect_step c flow (bytes.drop 4)).classified_eq
      rw [hfresh, Option.none_or, protocolByte_kindOf] at hstep
      cases hbyte : frameByte (bytes.drop 4) with
      | none =>
        have hsame : (frameEffect c flow (bytes.drop 4)).1.classifiedProtocol = none := by
          rw [hstep, hbyte]
          rfl
        obtain ⟨other, hmem, hlatches⟩ := ih _ hsame hclass
        exact ⟨other, List.mem_cons_of_mem _ hmem, hlatches⟩
      | some b =>
        refine ⟨bytes, List.mem_cons_self, ?_⟩
        have hfirst : (frameEffect c flow (bytes.drop 4)).1.classifiedProtocol =
            some (protocolClass b) := by
          rw [hstep, hbyte]
          rfl
        have hsticky := raises_sticky c ps hfirst
        rw [raises] at hsticky
        rw [pieceEffect, hsticky] at hclass
        cases hclass
        exact latches_of_frameByte hbyte

theorem setCarry_classified (flow : S7commFlowState) (dir : Direction) (bytes : List UInt8) :
    (flow.setCarry dir bytes).classifiedProtocol = flow.classifiedProtocol := by
  cases dir with
  | clientToServer => rfl
  | serverToClient => rfl

theorem onData_latches {s : S7commAnalyzer} (h : Settled s) (c : Delivery) (data : List UInt8) :
    Returns (onData s c data) fun s' => ∀ p,
      (flowOf s c.flowKey).classifiedProtocol = none →
      (flowOf s' c.flowKey).classifiedProtocol = some p →
      ∃ frame ∈ framesOf ((flowOf s c.flowKey).carry c.direction ++ data),
        Latches p (frame.drop 4) := by
  rw [onData_eq s c data ((h c.flowKey).length_le c.direction)]
  refine .pure fun p hfresh hclass => ?_
  rw [flowOf_insert, effect, setCarry_classified] at hclass
  rw [← setCarry_classified _ c.direction []] at hfresh
  obtain ⟨frame, hmem, hlatches⟩ := raises_latches c _ _ hfresh hclass
  exact ⟨frame, List.mem_filterMap.mpr ⟨.frame frame, hmem, rfl⟩, hlatches⟩

/-- TPDUs are read as they are, and only they are read, but for the frames whose length indicator
is 0. In any state of any run, a flow is classified by the user data of a frame or by one of
these. -/
theorem cotp_follows_grammar (t : Tpdu) (tpktPayload : List UInt8) (events : List Event) :
    parseCotpHeader t.bytes = t.header ∧
    (∀ header, parseCotpHeader tpktPayload = some header →
      (∃ t : Tpdu, t.bytes = tpktPayload ∧ t.header = some header) ∨
        ∃ code rest, tpktPayload = 0 :: code :: rest ∧
          cotpHeader code 1 (some code) = some header) ∧
    Returns (run onEvent S7commAnalyzer.new events) fun s => ∀ c data,
      Returns (onData s c data) fun s' => ∀ p,
        (flowOf s c.flowKey).classifiedProtocol = none →
        (flowOf s' c.flowKey).classifiedProtocol = some p →
        ∃ frame ∈ framesOf ((flowOf s c.flowKey).carry c.direction ++ data),
          Latches p (frame.drop 4) := by
  refine ⟨parseCotpHeader_bytes t, fun header h => parseCotpHeader_eq_some h, ?_⟩
  have hnew : Settled S7commAnalyzer.new := fun _ => shape_new
  have hrun : Returns (run onEvent S7commAnalyzer.new events) Settled :=
    run_returns (I := fun _ s => Settled s) events hnew fun _ e _ _ _ hs => onEvent_settled hs e
  exact hrun.mono fun s hs c data => onData_latches hs c data

/-- The user data are a classic header, but the class comes from the code. -/
theorem headless_frame :
    parseCotpHeader [0, 0xf0, 0x32] = some ⟨.dataTransfer, some 0xf0, 1⟩ ∧
    (∀ t : Tpdu, t.bytes ≠ [0, 0xf0, 0x32]) ∧
    ∃ s, onData .new plcDelivery [3, 0, 0, 7, 0, 0xf0, 0x32] = .ok s ∧
      (flowOf s plcDelivery.flowKey).classifiedProtocol = some .unclassified := by
  refine ⟨by decide, fun t ht => ?_, _, rfl, by decide⟩
  have hli := congrArg UInt8.toNat (List.cons.inj ht).1
  have hshort := t.short
  rw [UInt8.toNat_ofNat'] at hli
  have hzero : (0 : UInt8).toNat = 0 := rfl
  omega

end Wirerust.S7comm
