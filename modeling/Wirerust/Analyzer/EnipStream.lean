import Wirerust.Analyzer.EnipWalk

/-!
EtherNet/IP streams and the chunks they come in.

A frame that is declared longer than the carry may hold is skipped up to the end of the buffer,
and nothing of it is remembered. If the stream goes on after the header of such a frame
(`Overruns`), the end of the chunk decides where the walk goes on, and some two ways of cutting
the stream disagree. If it never does, all of them agree (`chunks_agree_iff`).
-/

namespace Wirerust.Enip

open Lib Wirerust.Flow Wirerust.Analyzer

/-! ## Streams that go on after a declared frame that is too long -/

def Oversized (buf : List UInt8) : Prop :=
  ∃ header, parseEnipHeader buf = some header ∧ isValidEnipFrame header = true ∧
    24 + header.length.toNat > maxEnipCarryBytes

/-- Read from its start, the stream comes to the header of a frame that is too long, and has bytes
after that header. -/
inductive Overruns : List UInt8 → Prop
  | here {buf : List UInt8} (hlong : Oversized buf) (hmore : 24 < buf.length) : Overruns buf
  | resync {buf : List UInt8} {header : EnipHeader} (hparse : parseEnipHeader buf = some header)
      (hvalid : isValidEnipFrame header = false) (hnext : Overruns (buf.drop 1)) : Overruns buf
  | frame {buf : List UInt8} {header : EnipHeader} (hparse : parseEnipHeader buf = some header)
      (hvalid : isValidEnipFrame header = true)
      (hshort : 24 + header.length.toNat ≤ maxEnipCarryBytes)
      (hfull : 24 + header.length.toNat ≤ buf.length)
      (hnext : Overruns (buf.drop (24 + header.length.toNat))) : Overruns buf

theorem le_length_of_parse {buf : List UInt8} {header : EnipHeader}
    (h : parseEnipHeader buf = some header) : 24 ≤ buf.length := by
  by_contra hlt
  rw [parseEnipHeader_eq_none.mpr (by omega)] at h
  cases h

theorem Oversized.append {xs : List UInt8} (ys : List UInt8) (h : Oversized xs) :
    Oversized (xs ++ ys) := by
  obtain ⟨header, hparse, hvalid, hlong⟩ := h
  exact ⟨header, by rw [parseEnipHeader_append ys (le_length_of_parse hparse), hparse], hvalid,
    hlong⟩

theorem Overruns.le_length {buf : List UInt8} (h : Overruns buf) : 24 ≤ buf.length := by
  cases h with
  | here hlong hmore => exact Nat.le_of_lt hmore
  | resync hparse _ _ => exact le_length_of_parse hparse
  | frame hparse _ _ _ _ => exact le_length_of_parse hparse

theorem Overruns.append {xs : List UInt8} (ys : List UInt8) (h : Overruns xs) :
    Overruns (xs ++ ys) := by
  induction h with
  | here hlong hmore =>
    exact .here (hlong.append ys) (by rw [List.length_append]; omega)
  | @resync buf header hparse hvalid _ ih =>
    have hlen := le_length_of_parse hparse
    refine .resync (by rw [parseEnipHeader_append ys hlen, hparse]) hvalid ?_
    rw [List.drop_append_of_le_length (by omega)]
    exact ih
  | @frame buf header hparse hvalid hshort hfull _ ih =>
    have hlen := le_length_of_parse hparse
    refine .frame (by rw [parseEnipHeader_append ys hlen, hparse]) hvalid hshort
      (by rw [List.length_append]; omega) ?_
    rw [List.drop_append_of_le_length hfull]
    exact ih

/-! ## Walking header by header -/

/-- As `turnOf`, but of a frame that is too long only the header is passed over. -/
def headerOf (buf : List UInt8) : Option (Token × Nat) :=
  match parseEnipHeader buf with
  | none => none
  | some header =>
    let totalFrameLen := 24 + header.length.toNat
    if !isValidEnipFrame header then some (.reject header.command, 1)
    else if totalFrameLen > maxEnipCarryBytes then some (.reject header.command, 24)
    else if buf.length < totalFrameLen then none
    else some (.frame header.command (buf.take totalFrameLen), totalFrameLen)

/-- What `headerOf` may find, with the reason. -/
theorem headerOf_cases {buf : List UInt8} {token : Token} {n : Nat}
    (h : headerOf buf = some (token, n)) :
    ∃ header, parseEnipHeader buf = some header ∧
      ((isValidEnipFrame header = false ∧ token = .reject header.command ∧ n = 1) ∨
       (isValidEnipFrame header = true ∧ 24 + header.length.toNat > maxEnipCarryBytes ∧
        token = .reject header.command ∧ n = 24) ∨
       (isValidEnipFrame header = true ∧ 24 + header.length.toNat ≤ maxEnipCarryBytes ∧
        n = 24 + header.length.toNat ∧ n ≤ buf.length ∧
        token = .frame header.command (buf.take n))) := by
  unfold headerOf at h
  cases hparse : parseEnipHeader buf with
  | none =>
    rw [hparse] at h
    cases h
  | some header =>
    simp only [hparse] at h
    refine ⟨header, rfl, ?_⟩
    split at h
    · rename_i hvalid
      cases h
      exact .inl ⟨by simpa using hvalid, rfl, rfl⟩
    · rename_i hvalid
      replace hvalid : isValidEnipFrame header = true := by simpa using hvalid
      split at h
      · rename_i hlong
        cases h
        exact .inr (.inl ⟨hvalid, hlong, rfl, rfl⟩)
      · rename_i hlong
        split at h
        · cases h
        · rename_i hfull
          cases h
          exact .inr (.inr ⟨hvalid, Nat.le_of_not_lt hlong, rfl, Nat.le_of_not_lt hfull, rfl⟩)

theorem headerOf_bounds {buf : List UInt8} {token : Token} {n : Nat}
    (h : headerOf buf = some (token, n)) : 0 < n ∧ n ≤ buf.length := by
  obtain ⟨header, hparse, hcases⟩ := headerOf_cases h
  have hlen := le_length_of_parse hparse
  rcases hcases with ⟨-, -, rfl⟩ | ⟨-, -, -, rfl⟩ | ⟨-, -, hn, hle, -⟩
  · omega
  · omega
  · omega

def headerLexer : Lexer UInt8 Token := ⟨headerOf, headerOf_bounds⟩

theorem headerLexer_stable : headerLexer.Stable := by
  rintro xs ys ⟨token, n⟩ h
  obtain ⟨header, hparse, hcases⟩ := headerOf_cases h
  have hparse' : parseEnipHeader (xs ++ ys) = some header := by
    rw [parseEnipHeader_append ys (le_length_of_parse hparse), hparse]
  show headerOf (xs ++ ys) = some (token, n)
  unfold headerOf
  simp only [hparse']
  rcases hcases with ⟨hvalid, rfl, rfl⟩ | ⟨hvalid, hlong, rfl, rfl⟩ |
    ⟨hvalid, hshort, hn, hle, rfl⟩
  · rw [if_pos (by simp [hvalid])]
  · rw [if_neg (by simp [hvalid]), if_pos hlong]
  · rw [if_neg (by simp [hvalid]), if_neg (by omega),
      if_neg (by rw [List.length_append]; omega), ← hn, List.take_append_of_le_length hle]

/-- The two walks take the same turn, unless bytes follow the header of a frame too long. -/
theorem turnOf_eq_headerOf {buf : List UInt8} (h : Oversized buf → buf.length ≤ 24) :
    turnOf buf = headerOf buf := by
  unfold turnOf headerOf
  cases hparse : parseEnipHeader buf with
  | none => rfl
  | some header =>
    simp only
    by_cases hvalid : isValidEnipFrame header = true
    · by_cases hlong : 24 + header.length.toNat > maxEnipCarryBytes
      · have hshort := h ⟨header, hparse, hvalid, hlong⟩
        have hlen := le_length_of_parse hparse
        have hmin : min (24 + header.length.toNat) buf.length = 24 := by omega
        simp only [if_pos hlong, hmin]
      · simp only [if_neg hlong]
    · simp only [hvalid, Bool.not_false, if_true]

theorem lex_eq_of_not_overruns {buf : List UInt8} (h : ¬Overruns buf) :
    walkLexer.lex buf = headerLexer.lex buf := by
  induction buf using headerLexer.lex_induction with
  | none buf hhead =>
    have hturn : turnOf buf = headerOf buf :=
      turnOf_eq_headerOf fun hlong => Nat.le_of_not_lt fun hmore => h (.here hlong hmore)
    rw [headerLexer.lex_of_none hhead, walkLexer.lex_of_none (hturn.trans hhead)]
  | some buf token n hhead ih =>
    have hturn : turnOf buf = headerOf buf :=
      turnOf_eq_headerOf fun hlong => Nat.le_of_not_lt fun hmore => h (.here hlong hmore)
    rw [headerLexer.lex_of_some hhead, walkLexer.lex_of_some (hturn.trans hhead), ih]
    obtain ⟨header, hparse, hcases⟩ := headerOf_cases hhead
    intro hnext
    rcases hcases with ⟨hvalid, -, rfl⟩ | ⟨hvalid, hlong, -, rfl⟩ | ⟨hvalid, hshort, rfl, hle, -⟩
    · exact h (.resync hparse hvalid hnext)
    · have hlen := hnext.le_length
      rw [List.length_drop] at hlen
      exact h (.here ⟨header, hparse, hvalid, hlong⟩ (by omega))
    · exact h (.frame hparse hvalid hshort hle hnext)

/-- What is left over overruns only if the whole stream does. -/
theorem Overruns.of_rest {xs ys : List UInt8}
    (h : Overruns ((headerLexer.lex xs).2 ++ ys)) : Overruns (xs ++ ys) := by
  induction xs using headerLexer.lex_induction with
  | none xs hhead =>
    rw [headerLexer.lex_of_none hhead] at h
    exact h
  | some xs token n hhead ih =>
    rw [headerLexer.lex_of_some hhead] at h
    have hnext := ih h
    obtain ⟨header, hparse, hcases⟩ := headerOf_cases hhead
    have hlen := le_length_of_parse hparse
    have hparse' : parseEnipHeader (xs ++ ys) = some header := by
      rw [parseEnipHeader_append ys hlen, hparse]
    rw [← List.drop_append_of_le_length (headerOf_bounds hhead).2] at hnext
    rcases hcases with ⟨hvalid, -, rfl⟩ | ⟨hvalid, hlong, -, rfl⟩ | ⟨hvalid, hshort, rfl, hle, -⟩
    · exact .resync hparse' hvalid hnext
    · have hmore := hnext.le_length
      rw [List.length_drop] at hmore
      exact .here ⟨header, hparse', hvalid, hlong⟩ (by omega)
    · exact .frame hparse' hvalid hshort (by rw [List.length_append]; omega) hnext

/-- Without an overrun, every way of cutting the stream gives the tokens of the whole stream. -/
theorem feed_eq_of_not_overruns {carry : List UInt8} (chunks : List (List UInt8))
    (hcarry : headerOf carry = none) (h : ¬Overruns (carry ++ chunks.flatten)) :
    walkLexer.feed carry chunks = headerLexer.lex (carry ++ chunks.flatten) := by
  rw [← headerLexer.feed_eq_lex headerLexer_stable chunks hcarry]
  induction chunks generalizing carry with
  | nil => rfl
  | cons chunk chunks ih =>
    rw [List.flatten_cons, ← List.append_assoc] at h
    have hfirst : walkLexer.lex (carry ++ chunk) = headerLexer.lex (carry ++ chunk) :=
      lex_eq_of_not_overruns fun hover => h (hover.append _)
    rw [Lexer.feed, Lexer.feed, hfirst]
    simp only [ih (headerLexer.head_rest (carry ++ chunk)) fun hover => h hover.of_rest]

/-! ## Byte by byte -/

theorem not_overruns_of_short {buf : List UInt8} (h : buf.length < 24) : ¬Overruns buf :=
  fun hover => absurd hover.le_length (Nat.not_le_of_lt h)

/-- One byte more than stays over is at most one token. -/
theorem not_overruns_snoc {carry : List UInt8} (b : UInt8) (h : Incomplete carry) :
    ¬Overruns (carry ++ [b]) := by
  have hlen : (carry ++ [b]).length = carry.length + 1 := List.length_append
  rcases h with hshort | ⟨header, hparse, hvalid, hmax, hpart⟩
  · intro hover
    cases hover with
    | here hlong hmore => omega
    | resync hparse _ hnext =>
      exact not_overruns_of_short (by rw [List.length_drop]; omega) hnext
    | frame hparse _ _ _ hnext =>
      exact not_overruns_of_short (by rw [List.length_drop]; omega) hnext
  · have hparse' : parseEnipHeader (carry ++ [b]) = some header := by
      rw [parseEnipHeader_append [b] (le_length_of_parse hparse), hparse]
    intro hover
    cases hover with
    | here hlong hmore =>
      obtain ⟨header', hparse'', -, hlong⟩ := hlong
      rw [hparse'] at hparse''
      cases hparse''
      omega
    | resync hparse'' hvalid' _ =>
      rw [hparse'] at hparse''
      cases hparse''
      rw [hvalid] at hvalid'
      cases hvalid'
    | frame hparse'' _ _ hfull hnext =>
      rw [hparse'] at hparse''
      cases hparse''
      exact not_overruns_of_short (by rw [List.length_drop]; omega) hnext

def singletons (xs : List UInt8) : List (List UInt8) := xs.map fun b => [b]

theorem flatten_singletons (xs : List UInt8) : (singletons xs).flatten = xs := by
  induction xs with
  | nil => rfl
  | cons b xs ih => rw [singletons, List.map_cons, List.flatten_cons, ← singletons, ih]; rfl

theorem feed_singletons {carry : List UInt8} (xs : List UInt8) (hcarry : turnOf carry = none) :
    walkLexer.feed carry (singletons xs) = headerLexer.feed carry (singletons xs) := by
  induction xs generalizing carry with
  | nil => rfl
  | cons b xs ih =>
    have hfirst : walkLexer.lex (carry ++ [b]) = headerLexer.lex (carry ++ [b]) :=
      lex_eq_of_not_overruns (not_overruns_snoc b (incomplete_of_turnOf hcarry))
    have hrest := ih (walkLexer.head_rest (carry ++ [b]))
    rw [hfirst] at hrest
    rw [singletons, List.map_cons, ← singletons, Lexer.feed, Lexer.feed]
    simp only [hfirst, hrest]

/-! ## Ways of cutting that disagree -/

/-- The part before the first overrun. -/
theorem Overruns.split {buf : List UInt8} (h : Overruns buf) :
    ∃ pre long tokens, buf = pre ++ long ∧ Oversized long ∧ 24 < long.length ∧
      ∀ k, 24 ≤ k → walkLexer.lex (pre ++ long.take k) =
        (tokens ++ (walkLexer.lex (long.take k)).1, (walkLexer.lex (long.take k)).2) := by
  induction h with
  | @here buf hlong hmore => exact ⟨[], buf, [], rfl, hlong, hmore, fun k _ => rfl⟩
  | @resync buf header hparse hvalid _ ih =>
    obtain ⟨pre, long, tokens, hbuf, hlong, hmore, hlex⟩ := ih
    have hlen := le_length_of_parse hparse
    have hwhole : buf = buf.take 1 ++ pre ++ long := by
      rw [List.append_assoc, ← hbuf, List.take_append_drop]
    refine ⟨buf.take 1 ++ pre, long, .reject header.command :: tokens, hwhole, hlong, hmore,
      fun k hk => ?_⟩
    have hparse' : parseEnipHeader (buf.take 1 ++ pre ++ long.take k) = some header := by
      rw [← hparse]
      conv_rhs => rw [hwhole, ← List.take_append_drop k long, ← List.append_assoc]
      refine (parseEnipHeader_append _ ?_).symm
      simp only [List.length_append, List.length_take]
      omega
    have hturn : turnOf (buf.take 1 ++ pre ++ long.take k) = some (.reject header.command, 1) := by
      unfold turnOf
      simp only [hparse', hvalid, Bool.not_false, if_true]
    have htake : (buf.take 1).length = 1 := by rw [List.length_take]; omega
    rw [walkLexer.lex_of_some hturn, List.append_assoc, List.drop_append_of_le_length (by omega),
      List.drop_of_length_le (by omega), List.nil_append, hlex k hk]
    rfl
  | @frame buf header hparse hvalid hshort hfull _ ih =>
    obtain ⟨pre, long, tokens, hbuf, hlong, hmore, hlex⟩ := ih
    have hlen := le_length_of_parse hparse
    generalize hn : 24 + header.length.toNat = n at hshort hfull hbuf
    have hwhole : buf = buf.take n ++ pre ++ long := by
      rw [List.append_assoc, ← hbuf, List.take_append_drop]
    refine ⟨buf.take n ++ pre, long, .frame header.command (buf.take n) :: tokens, hwhole, hlong,
      hmore, fun k hk => ?_⟩
    have htake : (buf.take n).length = n := by rw [List.length_take]; omega
    have hparse' : parseEnipHeader (buf.take n ++ pre ++ long.take k) = some header := by
      rw [← hparse]
      conv_rhs => rw [hwhole, ← List.take_append_drop k long, ← List.append_assoc]
      refine (parseEnipHeader_append _ ?_).symm
      simp only [List.length_append, List.length_take]
      omega
    have hturn : turnOf (buf.take n ++ pre ++ long.take k) =
        some (.frame header.command (buf.take n), n) := by
      unfold turnOf
      simp only [hparse', hvalid, Bool.not_true, Bool.false_eq_true, if_false, hn]
      rw [if_neg (by omega), if_neg (by simp only [List.length_append]; omega), List.append_assoc,
        List.take_append_of_le_length (by omega), List.take_of_length_le (by omega)]
    rw [walkLexer.lex_of_some hturn, List.append_assoc, List.drop_append_of_le_length (by omega),
      List.drop_of_length_le (by omega), List.nil_append, hlex k hk]
    rfl

/-- How many tokens there are, and how much stays over. -/
def sizes (r : List Token × List UInt8) : Nat × Nat := (r.1.length, r.2.length)

/-- All commands are below 256, so no command starts at the second byte of another one. -/
theorem not_valid_drop_one {buf : List UInt8} {header header' : EnipHeader}
    (hparse : parseEnipHeader buf = some header) (hvalid : isValidEnipFrame header = true)
    (hparse' : parseEnipHeader (buf.drop 1) = some header') :
    isValidEnipFrame header' = false := by
  unfold parseEnipHeader at hparse hparse'
  split at hparse
  · cases hparse
  · split at hparse'
    · cases hparse'
    · cases hparse
      cases hparse'
      have hlow : byteAt (buf.drop 1) 0 = byteAt buf 1 := by
        rw [byteAt, byteAt, List.getD_eq_getElem?_getD, List.getD_eq_getElem?_getD,
          List.getElem?_drop]
      have hcommand := toNat_leU16 (byteAt buf 0) (byteAt buf 1)
      have hcommand' := toNat_leU16 (byteAt buf 1) (byteAt (buf.drop 1) 1)
      have hlo := (byteAt buf 0).toNat_lt
      simp only [isValidEnipFrame, leU16At, hlow, Nat.zero_add, decide_eq_true_eq,
        decide_eq_false_iff_not] at hvalid ⊢
      generalize leU16 (byteAt buf 0) (byteAt buf 1) = command at hvalid hcommand
      generalize leU16 (byteAt buf 1) (byteAt (buf.drop 1) 1) = command' at hcommand' ⊢
      intro hmem
      simp only [List.mem_cons, List.not_mem_nil, or_false] at hvalid hmem
      have hbound : command.toNat < 256 := by
        rcases hvalid with rfl | rfl | rfl | rfl | rfl | rfl | rfl | rfl | rfl <;> decide
      have hother : 0 < command'.toNat ∧ command'.toNat < 256 := by
        rcases hmem with rfl | rfl | rfl | rfl | rfl | rfl | rfl | rfl | rfl <;> decide
      omega

/-- The walk header by header does not give the same result from every place to start. -/
theorem sizes_differ (rest : List UInt8) (len : Nat) (hrest : rest ≠ []) (hlen : 577 ≤ len) :
    ∃ i j, (i ≤ len ∧ i ≤ rest.length) ∧ (j ≤ len ∧ j ≤ rest.length) ∧
      sizes (headerLexer.lex (rest.drop i)) ≠ sizes (headerLexer.lex (rest.drop j)) := by
  have hpos : 0 < rest.length := List.length_pos_iff.mpr hrest
  by_cases hend : rest.length ≤ len
  · -- From the last byte on one byte stays over, from the end on none.
    refine ⟨rest.length - 1, rest.length, ⟨by omega, by omega⟩, ⟨hend, Nat.le_refl _⟩, ?_⟩
    have hone : (rest.drop (rest.length - 1)).length = 1 := by rw [List.length_drop]; omega
    have hnone : headerOf (rest.drop (rest.length - 1)) = none := by
      unfold headerOf
      rw [parseEnipHeader_eq_none.mpr (by omega)]
    rw [headerLexer.lex_of_none hnone, List.drop_length,
      headerLexer.lex_of_none headerLexer.head_nil]
    intro h
    have := congrArg Prod.snd h
    simp only [sizes, List.length_nil] at this
    omega
  · cases hhead : headerOf rest with
    | none =>
      refine ⟨0, 1, ⟨by omega, by omega⟩, ⟨by omega, by omega⟩, ?_⟩
      have hsecond := headerLexer.length_lex (rest.drop 1)
      rw [List.length_drop] at hsecond
      rw [List.drop_zero, headerLexer.lex_of_none hhead]
      intro h
      have := congrArg Prod.snd h
      simp only [sizes] at this
      omega
    | some next =>
      obtain ⟨token, n⟩ := next
      by_cases hn : n ≤ len
      · -- The token takes no more than the frame was declared to have.
        refine ⟨0, n, ⟨by omega, by omega⟩, ⟨hn, (headerOf_bounds hhead).2⟩, ?_⟩
        rw [List.drop_zero, headerLexer.lex_of_some hhead]
        intro h
        have := congrArg Prod.fst h
        simp only [sizes, List.length_cons] at this
        omega
      · -- A complete frame at the start leaves no header at the second byte.
        obtain ⟨header, hparse, hcases⟩ := headerOf_cases hhead
        have hvalid : isValidEnipFrame header = true := by
          rcases hcases with ⟨-, -, rfl⟩ | ⟨hvalid, -⟩ | ⟨hvalid, -⟩
          · omega
          · exact hvalid
          · exact hvalid
        have hdrop : (rest.drop 1).length = rest.length - 1 := List.length_drop
        cases hparse' : parseEnipHeader (rest.drop 1) with
        | none =>
          have := parseEnipHeader_eq_none.mp hparse'
          omega
        | some header' =>
          have hinvalid := not_valid_drop_one hparse hvalid hparse'
          have hsecond : headerOf (rest.drop 1) = some (.reject header'.command, 1) := by
            unfold headerOf
            simp only [hparse', hinvalid, Bool.not_false, if_true]
          refine ⟨1, 2, ⟨by omega, by omega⟩, ⟨by omega, by omega⟩, ?_⟩
          rw [headerLexer.lex_of_some hsecond, List.drop_drop, show 1 + 1 = 2 from rfl]
          intro h
          have := congrArg Prod.fst h
          simp only [sizes, List.length_cons] at this
          omega

/-- An overrun shows: two ways of cutting the stream leave different numbers behind. -/
theorem Overruns.disagree {stream : List UInt8} (h : Overruns stream) :
    ∃ chunks chunks', chunks.flatten = stream ∧ chunks'.flatten = stream ∧
      sizes (walkLexer.feed [] chunks) ≠ sizes (walkLexer.feed [] chunks') := by
  obtain ⟨pre, long, tokens, hstream, hlong, hmore, hlex⟩ := h.split
  obtain ⟨header, hparse, hvalid, hmax⟩ := hlong
  have hlen : 577 ≤ header.length.toNat := by
    unfold maxEnipCarryBytes at hmax
    omega
  have hne : long.drop 24 ≠ [] := by
    intro hnil
    have := congrArg List.length hnil
    rw [List.length_drop, List.length_nil] at this
    omega
  -- Cut inside the declared frame, then byte by byte.
  have hcut : ∀ j, j ≤ header.length.toNat → j ≤ (long.drop 24).length →
      ∃ chunks, chunks.flatten = stream ∧ sizes (walkLexer.feed [] chunks) =
        ((tokens.length + 1) + (sizes (headerLexer.lex ((long.drop 24).drop j))).1,
          (sizes (headerLexer.lex ((long.drop 24).drop j))).2) := by
    intro j hj hj'
    rw [List.length_drop] at hj'
    have htake : (long.take (24 + j)).length = 24 + j := by rw [List.length_take]; omega
    have hturn : turnOf (long.take (24 + j)) = some (.reject header.command, 24 + j) := by
      have hparse' : parseEnipHeader (long.take (24 + j)) = some header := by
        rw [← hparse]
        conv_rhs => rw [← List.take_append_drop (24 + j) long]
        exact (parseEnipHeader_append _ (by omega)).symm
      have hmin : min (24 + header.length.toNat) (24 + j) = 24 + j := by omega
      unfold turnOf
      simp only [hparse', hvalid, Bool.not_true, Bool.false_eq_true, if_false, if_pos hmax, htake,
        hmin]
    have hfirst : walkLexer.lex (pre ++ long.take (24 + j)) =
        (tokens ++ [.reject header.command], []) := by
      rw [hlex (24 + j) (by omega), walkLexer.lex_of_some hturn,
        List.drop_of_length_le (Nat.le_of_eq htake), walkLexer.lex_of_none walkLexer.head_nil]
    have hlater : walkLexer.feed [] (singletons ((long.drop 24).drop j)) =
        headerLexer.lex ((long.drop 24).drop j) := by
      rw [feed_singletons _ rfl,
        headerLexer.feed_eq_lex headerLexer_stable _ headerLexer.head_nil, flatten_singletons,
        List.nil_append]
    refine ⟨(pre ++ long.take (24 + j)) :: singletons ((long.drop 24).drop j), ?_, ?_⟩
    · rw [List.flatten_cons, flatten_singletons, List.drop_drop, List.append_assoc,
        List.take_append_drop, hstream]
    · rw [Lexer.feed, List.nil_append, hfirst]
      simp only [hlater, sizes, List.length_append, List.length_singleton]
  obtain ⟨i, j, ⟨hi, hi'⟩, ⟨hj, hj'⟩, hne⟩ := sizes_differ _ _ hne hlen
  obtain ⟨chunks, hflat, hsizes⟩ := hcut i hi hi'
  obtain ⟨chunks', hflat', hsizes'⟩ := hcut j hj hj'
  refine ⟨chunks, chunks', hflat, hflat', ?_⟩
  rw [hsizes, hsizes']
  intro heq
  obtain ⟨hfst, hsnd⟩ := Prod.mk.injEq .. ▸ heq
  exact hne (Prod.ext (by omega) hsnd)

/-! ## What a run over the chunks leaves -/

theorem frames_append (tokens tokens' : List Token) :
    frames (tokens ++ tokens') = frames tokens ++ frames tokens' := by
  induction tokens with
  | nil => rfl
  | cons token tokens ih =>
    cases token with
    | reject command => exact ih
    | frame command bytes => exact congrArg (bytes :: ·) ih

theorem rejects_append (tokens tokens' : List Token) :
    rejects (tokens ++ tokens') = rejects tokens' + rejects tokens := by
  induction tokens with
  | nil => rfl
  | cons token tokens ih =>
    cases token with
    | reject command => exact congrArg (· + 1) ih
    | frame command bytes => exact ih

/-- What the calls for one direction do to a flow, when they find `r.1` and leave `r.2`. -/
structure Fed (dir : Direction) (r : List Token × List UInt8) (flow flow' : EnipFlowState) :
    Prop where
  commandCounts : flow'.commandCounts = r.1.foldl tally flow.commandCounts
  parseErrors : flow'.parseErrors = bump64^[rejects r.1] flow.parseErrors
  malformedInWindow : flow'.malformedInWindow = bump64^[rejects r.1] flow.malformedInWindow
  pduCount : flow'.pduCount = bump64^[(frames r.1).length] flow.pduCount
  carry : flow'.carry dir = r.2

/-- A call at `ts` leaves the count of malformed frames as it is. -/
def Settled (ts : UInt32) (flow : EnipFlowState) : Prop :=
  (maybeExpireMalformedWindow flow ts).malformedInWindow = flow.malformedInWindow

theorem Called.settled {c : Delivery} {tokens : List Token} {rest : List UInt8}
    {flow flow' : EnipFlowState} (h : Called c tokens rest flow flow') : Settled c.ts flow' := by
  have hidle : ¬saturatingSub c.ts flow'.malformedWindowStartTs > 300 := by
    rw [h.malformedWindowStartTs]
    unfold maybeExpireMalformedWindow
    split
    · simp [saturatingSub]
    · assumption
  unfold Settled maybeExpireMalformedWindow
  rw [if_neg hidle]

def feedChunks (s : EnipAnalyzer) (c : Delivery) (chunks : List (List UInt8)) :
    Checked EnipAnalyzer := run (fun t data => onData t c data) s chunks

theorem feedChunks_fed (c : Delivery) (chunks : List (List UInt8)) {s : EnipAnalyzer}
    {flow : EnipFlowState} (hflow : flowOf s c.flowKey = flow) (hopen : flow.isNonEnip = false)
    (hsettled : Settled c.ts flow) :
    ReturnsIf
      (countsTotal flow.commandCounts +
          ((flow.carry c.direction).length + chunks.flatten.length) < 2 ^ 64 ∧
        countsTotal flow.errorCountsInWindow +
          ((flow.carry c.direction).length + chunks.flatten.length) < 2 ^ 64)
      (feedChunks s c chunks) (fun s' =>
        Fed c.direction (walkLexer.feed (flow.carry c.direction) chunks) flow
          (flowOf s' c.flowKey)) := by
  induction chunks generalizing s flow with
  | nil =>
    refine .pure ?_
    rw [hflow]
    exact ⟨rfl, rfl, rfl, rfl, rfl⟩
  | cons chunk chunks ih =>
    have hbuf : (bufferOf flow c chunk).length = (flow.carry c.direction).length + chunk.length :=
      List.length_append
    rw [feedChunks, run_cons, List.flatten_cons, List.length_append]
    have hcall := onData_called s c chunk (by rw [hflow]; exact hopen)
    simp only [hflow] at hcall
    refine (hcall.imp fun hroom => ⟨by omega, by omega⟩).bind fun s₁ hs₁ => ?_
    obtain ⟨flow₁, hflows, -, hcalled, -⟩ := hs₁
    obtain ⟨hself, -⟩ := flowOf_insert hflows
    have htokens := walkLexer.length_lex (bufferOf flow c chunk)
    obtain ⟨hframes, -⟩ := lex_frames (bufferOf flow c chunk)
    have htotal := hcalled.total
    have herrors := hcalled.errorTotal
    have hnext := ih hself hcalled.isNonEnip hcalled.settled
    rw [hcalled.carry] at hnext
    refine (hnext.imp fun hroom => ⟨by omega, by omega⟩).mono fun s₂ h₂ => ?_
    rw [Lexer.feed]
    constructor
    · rw [h₂.commandCounts, hcalled.commandCounts, ← List.foldl_append]
      rfl
    · rw [h₂.parseErrors, hcalled.parseErrors, ← Function.iterate_add_apply, ← rejects_append]
      rfl
    · rw [h₂.malformedInWindow, hcalled.malformedInWindow, show _ = _ from hsettled,
        ← Function.iterate_add_apply, ← rejects_append]
      rfl
    · rw [h₂.pduCount, hcalled.pduCount, ← Function.iterate_add_apply, Nat.add_comm,
        ← List.length_append, ← frames_append]
      rfl
    · exact h₂.carry

/-- What the analyzer shows of one direction of a flow. -/
structure Observed where
  pduCount : Nat
  parseErrors : Nat
  malformedInWindow : Nat
  commandCounts : SortedMap UInt16 Nat
  carry : List UInt8

def observe (s : EnipAnalyzer) (c : Delivery) : Observed where
  pduCount := (flowOf s c.flowKey).pduCount
  parseErrors := (flowOf s c.flowKey).parseErrors
  malformedInWindow := (flowOf s c.flowKey).malformedInWindow
  commandCounts := (flowOf s c.flowKey).commandCounts
  carry := (flowOf s c.flowKey).carry c.direction

/-- What a run over the chunks of a fresh flow shows, when it finds `r.1` and leaves `r.2`. -/
def shown (r : List Token × List UInt8) : Observed where
  pduCount := min (frames r.1).length (2 ^ 64 - 1)
  parseErrors := min (rejects r.1) (2 ^ 64 - 1)
  malformedInWindow := min (rejects r.1) (2 ^ 64 - 1)
  commandCounts := r.1.foldl tally .empty
  carry := r.2

theorem feedChunks_observe (s : EnipAnalyzer) (c : Delivery) (chunks : List (List UInt8))
    (hfresh : s.flows.get? c.flowKey = none) :
    ReturnsIf (chunks.flatten.length < 2 ^ 64) (feedChunks s c chunks)
      (fun s' => observe s' c = shown (walkLexer.feed [] chunks)) := by
  have hflow : flowOf s c.flowKey = {} := by rw [flowOf, hfresh, Option.getD_none]
  have hsettled : Settled c.ts {} := by
    unfold Settled maybeExpireMalformedWindow
    split
    · rfl
    · rfl
  have hcarry : ({} : EnipFlowState).carry c.direction = [] := by
    cases c.direction with
    | clientToServer => rfl
    | serverToClient => rfl
  have hfed := feedChunks_fed c chunks hflow rfl hsettled
  rw [hcarry, List.length_nil, Nat.zero_add] at hfed
  have hzero : countsTotal ({} : EnipFlowState).commandCounts = 0 := rfl
  have hzero' : countsTotal ({} : EnipFlowState).errorCountsInWindow = 0 := rfl
  refine (hfed.imp fun hroom => ⟨by omega, by omega⟩).mono fun s' h => ?_
  unfold observe shown
  have hiterate : ∀ k, bump64^[k] 0 = min k (2 ^ 64 - 1) := by
    intro k
    have := bump64_iterate 0 k
    rwa [Nat.zero_add] at this
  rw [h.pduCount, h.parseErrors, h.malformedInWindow, h.commandCounts, h.carry, hiterate,
    hiterate]

/-- The counters tell the sizes apart as long as they do not saturate. -/
theorem sizes_eq_of_shown {r r' : List Token × List UInt8} (hr : r.1.length < 2 ^ 64)
    (hr' : r'.1.length < 2 ^ 64) (h : shown r = shown r') : sizes r = sizes r' := by
  have hpdus : min (frames r.1).length (2 ^ 64 - 1) = min (frames r'.1).length (2 ^ 64 - 1) :=
    congrArg Observed.pduCount h
  have herrors : min (rejects r.1) (2 ^ 64 - 1) = min (rejects r'.1) (2 ^ 64 - 1) :=
    congrArg Observed.parseErrors h
  have hcarry : r.2 = r'.2 := congrArg Observed.carry h
  have htokens := length_tokens r.1
  have htokens' := length_tokens r'.1
  have hlength : r.1.length = r'.1.length := by omega
  rw [sizes, sizes, hlength, hcarry]

/-- Every two ways of cutting the stream show the same in the end. -/
def ChunksAgree (s : EnipAnalyzer) (c : Delivery) (stream : List UInt8) : Prop :=
  ∀ chunks chunks' s₁ s₂, chunks.flatten = stream → chunks'.flatten = stream →
    feedChunks s c chunks = .ok s₁ → feedChunks s c chunks' = .ok s₂ →
    observe s₁ c = observe s₂ c

/-- The chunks make no difference if and only if the stream has nothing after the header of a
frame that is too long. -/
theorem chunks_agree_iff (s : EnipAnalyzer) (c : Delivery) (stream : List UInt8)
    (hfresh : s.flows.get? c.flowKey = none) (hlen : stream.length < 2 ^ 64) :
    (∀ chunks, chunks.flatten = stream → ∃ s', feedChunks s c chunks = .ok s') ∧
    (ChunksAgree s c stream ↔ ¬Overruns stream) := by
  have hreturns : ∀ chunks, chunks.flatten = stream → ∃ s', feedChunks s c chunks = .ok s' := by
    intro chunks hflat
    exact (feedChunks_observe s c chunks hfresh).1 (by rw [hflat]; exact hlen)
  refine ⟨hreturns, ?_, ?_⟩
  · intro hagree hover
    obtain ⟨chunks, chunks', hflat, hflat', hne⟩ := hover.disagree
    obtain ⟨s₁, hs₁⟩ := hreturns chunks hflat
    obtain ⟨s₂, hs₂⟩ := hreturns chunks' hflat'
    have heq := hagree chunks chunks' s₁ s₂ hflat hflat' hs₁ hs₂
    rw [(feedChunks_observe s c chunks hfresh).2 s₁ hs₁,
      (feedChunks_observe s c chunks' hfresh).2 s₂ hs₂] at heq
    refine hne (sizes_eq_of_shown ?_ ?_ heq)
    · have hsize := walkLexer.length_feed [] chunks
      rw [hflat, List.length_nil] at hsize
      omega
    · have hsize := walkLexer.length_feed [] chunks'
      rw [hflat', List.length_nil] at hsize
      omega
  · intro hnot chunks chunks' s₁ s₂ hflat hflat' hs₁ hs₂
    rw [(feedChunks_observe s c chunks hfresh).2 s₁ hs₁,
      (feedChunks_observe s c chunks' hfresh).2 s₂ hs₂,
      feed_eq_of_not_overruns chunks rfl (by rw [List.nil_append, hflat]; exact hnot),
      feed_eq_of_not_overruns chunks' rfl (by rw [List.nil_append, hflat']; exact hnot),
      hflat, hflat']

/-- The header of a RegisterSession frame that is declared 601 bytes long. -/
def longHeader : List UInt8 := [0x65, 0, 0x41, 0x02] ++ List.replicate 20 0

theorem chunks_agree_iff_header :
    ChunksAgree (.new 50 10) ⟨adapterKey, 0, .clientToServer⟩ longHeader ↔ ¬Overruns longHeader :=
  (chunks_agree_iff (.new 50 10) ⟨adapterKey, 0, .clientToServer⟩ longHeader rfl (by decide)).2

/-- The first byte after the header is skipped with it if both come in one chunk, and is kept as
the start of a new header if it comes in the next. -/
theorem header_in_its_own_chunk :
    ¬ChunksAgree (.new 50 10) ⟨adapterKey, 0, .clientToServer⟩ (longHeader ++ [0]) := by
  intro hagree
  obtain ⟨s₁, hs₁, hcarry₁⟩ : ∃ s₁, feedChunks (.new 50 10) ⟨adapterKey, 0, .clientToServer⟩
      [longHeader ++ [0]] = .ok s₁ ∧
      (observe s₁ ⟨adapterKey, 0, .clientToServer⟩).carry = [] := ⟨_, rfl, by decide⟩
  obtain ⟨s₂, hs₂, hcarry₂⟩ : ∃ s₂, feedChunks (.new 50 10) ⟨adapterKey, 0, .clientToServer⟩
      [longHeader, [0]] = .ok s₂ ∧
      (observe s₂ ⟨adapterKey, 0, .clientToServer⟩).carry = [0] := ⟨_, rfl, by decide⟩
  have heq := hagree [longHeader ++ [0]] [longHeader, [0]] s₁ s₂ rfl rfl hs₁ hs₂
  rw [heq, hcarry₂] at hcarry₁
  cases hcarry₁

end Wirerust.Enip
