import WindowLex.Encoding.Decoder

/-! Decoding undoes encoding: the bytes of a text in this encoding decode to the text, and none are left over.
Each character is read as its first byte, which tells how many follow and bounds the second, and the rest. -/
namespace WindowLex

def Text.utf8 (text : List Char) : List UInt8 := (String.ofList text).toUTF8.data.toList

theorem utf8Characters (text : List Char) : Text.utf8 text = text.flatMap String.utf8EncodeChar := by
  rw [Text.utf8, String.toUTF8_eq_toByteArray, String.toByteArray_ofList, List.utf8Encode,
    List.data_toByteArray, List.toList_toArray]

structure Decoder.Incremental (d : Decoder) : Prop where
  nothing : ∀ state, d.decode state [] = .ok ([], state)
  append : ∀ state first second, (d.decode state (first ++ second)).toOption =
    (d.decode state first).toOption.bind fun (text, next) =>
      (d.decode next second).toOption.map fun (later, last) => (text ++ later, last)

theorem mapErrorToOption {ε ε' α : Type} (f : ε → ε') (x : Except ε α) :
    (x.mapError f).toOption = x.toOption := by
  cases x <;> rfl

namespace Encoding.Utf8

variable {position : Nat} {text : List Char} {p : Pending} {b : UInt8}

theorem stepAscii (low : b.toNat < 0x80) : step position .between b = .ok (some (Char.ofNat b.toNat), .between) :=
  if_pos low

theorem stepLead (lead : lead? b = some p) : step position .between b = .ok (none, .inside p) := by
  have high : 0x80 ≤ b.toNat := by
    refine Nat.le_of_not_lt fun low => ?_
    rw [lead?, if_pos (by omega)] at lead
    contradiction
  simp only [step, Nat.not_lt.mpr high, if_false, lead]

theorem stepOwed {next : Nat × Nat} {later : List (Nat × Nat)} (owed : p.later = next :: later)
    (inside : p.next.1 ≤ b.toNat ∧ b.toNat ≤ p.next.2) : step position (.inside p) b =
      .ok (none, .inside ⟨p.byte, p.seen + 1, p.bits * 64 + b.toNat % 64, next, later⟩) := by
  simp only [step, if_pos inside, owed]

theorem stepLast (done : p.later = []) (inside : p.next.1 ≤ b.toNat ∧ b.toNat ≤ p.next.2) :
    step position (.inside p) b = .ok (some (Char.ofNat (p.bits * 64 + b.toNat % 64)), .between) := by
  simp only [step, if_pos inside, done]

theorem decodeStep {state next : State} {c : Option Char} (steps : step position state b = .ok (c, next))
    (rest : List UInt8) : decodeFrom position state text (b :: rest) =
      decodeFrom (position + 1) next (c.toList ++ text) rest := by
  rw [decodeFrom, steps]

variable {v : Nat}

theorem leadTwo (low : 0x80 ≤ v) (high : v < 0x800) :
    lead? (.ofNat (v / 64 % 32 + 192)) = some ⟨.ofNat (v / 64 % 32 + 192), 1, v / 64, trail, []⟩ := by
  have byte : (UInt8.ofNat (v / 64 % 32 + 192)).toNat = v / 64 + 192 := by
    rw [UInt8.toNat_ofNat_of_lt' (by simp [UInt8.size]; omega)]; omega
  have bits : (v / 64 + 192) % 32 = v / 64 := by omega
  simp only [lead?, byte, bits]
  rw [if_neg (by omega), if_pos (by omega)]

theorem leadThree (low : 0x800 ≤ v) (high : v < 0x10000) (scalar : v < 0xD800 ∨ 0xDFFF < v) :
    ∃ next, lead? (.ofNat (v / 4096 % 16 + 224)) =
        some ⟨.ofNat (v / 4096 % 16 + 224), 1, v / 4096, next, [trail]⟩ ∧
      next.1 ≤ v / 64 % 64 + 128 ∧ v / 64 % 64 + 128 ≤ next.2 := by
  have byte : (UInt8.ofNat (v / 4096 % 16 + 224)).toNat = v / 4096 + 224 := by
    rw [UInt8.toNat_ofNat_of_lt' (by simp [UInt8.size]; omega)]; omega
  have bits : (v / 4096 + 224) % 16 = v / 4096 := by omega
  simp only [lead?, byte, bits]
  rw [if_neg (by omega), if_neg (by omega)]
  split
  · exact ⟨_, rfl, by dsimp only; omega, by dsimp only; omega⟩
  split
  · exact ⟨_, rfl, by dsimp only; omega, by dsimp only; omega⟩
  rw [if_pos (by omega)]
  exact ⟨_, rfl, by dsimp only [trail]; omega, by dsimp only [trail]; omega⟩

theorem leadFour (low : 0x10000 ≤ v) (high : v < 0x110000) :
    ∃ next, lead? (.ofNat (v / 262144 % 8 + 240)) =
        some ⟨.ofNat (v / 262144 % 8 + 240), 1, v / 262144, next, [trail, trail]⟩ ∧
      next.1 ≤ v / 4096 % 64 + 128 ∧ v / 4096 % 64 + 128 ≤ next.2 := by
  have byte : (UInt8.ofNat (v / 262144 % 8 + 240)).toNat = v / 262144 + 240 := by
    rw [UInt8.toNat_ofNat_of_lt' (by simp [UInt8.size]; omega)]; omega
  have bits : (v / 262144 + 240) % 8 = v / 262144 := by omega
  simp only [lead?, byte, bits]
  rw [if_neg (by omega), if_neg (by omega), if_neg (by omega), if_neg (by omega), if_neg (by omega)]
  split
  · exact ⟨_, rfl, by dsimp only; omega, by dsimp only; omega⟩
  split
  · exact ⟨_, rfl, by dsimp only [trail]; omega, by dsimp only [trail]; omega⟩
  rw [if_pos (by omega)]
  exact ⟨_, rfl, by dsimp only; omega, by dsimp only; omega⟩

theorem trailByte (n : Nat) : (UInt8.ofNat (n % 64 + 128)).toNat = n % 64 + 128 :=
  UInt8.toNat_ofNat_of_lt' (by simp [UInt8.size]; omega)

theorem trailInside (n : Nat) : trail.1 ≤ (UInt8.ofNat (n % 64 + 128)).toNat ∧
    (UInt8.ofNat (n % 64 + 128)).toNat ≤ trail.2 := by
  rw [trailByte]
  dsimp only [trail]
  omega

-- One case for each number of bytes.
theorem decodeCharacter (c : Char) (position : Nat) (text : List Char) (rest : List UInt8) :
    decodeFrom position .between text (String.utf8EncodeChar c ++ rest) =
      decodeFrom (position + (String.utf8EncodeChar c).length) .between (c :: text) rest := by
  have code : Char.ofNat c.val.toNat = c := Char.ofNat_toNat c
  have scalar : c.val.toNat < 0xD800 ∨ 0xDFFF < c.val.toNat ∧ c.val.toNat < 0x110000 := c.valid
  rw [String.utf8EncodeChar]
  generalize c.val.toNat = v at code scalar
  split
  · have byte : (UInt8.ofNat v).toNat = v := UInt8.toNat_ofNat_of_lt' (by simp [UInt8.size]; omega)
    rw [List.singleton_append, decodeStep (stepAscii (by omega)), byte, code, List.length_singleton]
    rfl
  split
  · have lead := leadTwo (v := v) (by omega) (by omega)
    have bits : v / 64 * 64 + (v % 64 + 128) % 64 = v := by omega
    simp only [List.cons_append, List.nil_append]
    rw [decodeStep (stepLead lead), decodeStep (stepLast rfl (trailInside v)), trailByte, bits, code]
    rfl
  split
  · obtain ⟨next, lead, second⟩ := leadThree (v := v) (by omega) (by omega) (by omega)
    have bits : (v / 4096 * 64 + (v / 64 % 64 + 128) % 64) * 64 + (v % 64 + 128) % 64 = v := by omega
    rw [← trailByte (v / 64)] at second
    simp only [List.cons_append, List.nil_append]
    rw [decodeStep (stepLead lead), decodeStep (stepOwed rfl second), decodeStep (stepLast rfl (trailInside v)),
      trailByte, trailByte, bits, code]
    rfl
  · obtain ⟨next, lead, second⟩ := leadFour (v := v) (by omega) (by omega)
    have bits : ((v / 262144 * 64 + (v / 4096 % 64 + 128) % 64) * 64 + (v / 64 % 64 + 128) % 64) * 64 +
        (v % 64 + 128) % 64 = v := by omega
    rw [← trailByte (v / 4096)] at second
    simp only [List.cons_append, List.nil_append]
    rw [decodeStep (stepLead lead), decodeStep (stepOwed rfl second), decodeStep (stepOwed rfl (trailInside (v / 64))),
      decodeStep (stepLast rfl (trailInside v)), trailByte, trailByte, trailByte, bits, code]
    rfl

theorem decodeCharacters (characters : List Char) (position : Nat) (text : List Char) :
    decodeFrom position .between text (characters.flatMap String.utf8EncodeChar) =
      .ok (text.reverse ++ characters, .between) := by
  induction characters generalizing position text with
  | nil => simp [decodeFrom]
  | cons c characters ih =>
    rw [List.flatMap_cons, decodeCharacter, ih, List.reverse_cons, List.append_assoc, List.singleton_append]

theorem decodeText (text : List Char) : decoder.decode .between (Text.utf8 text) = .ok (text, .between) := by
  change Except.mapError _ (decodeFrom 0 .between [] (Text.utf8 text)) = _
  rw [utf8Characters, decodeCharacters]
  rfl

-- Positions show in errors only.
theorem stepElsewhere (position : Nat) (state : State) (b : UInt8) :
    (step position state b).toOption = (step 0 state b).toOption := by
  unfold step
  repeat' split
  all_goals rfl

def steps (state : State) : List UInt8 → Option (List Char × State)
  | [] => some ([], state)
  | b :: rest =>
    (step 0 state b).toOption.bind fun (c, next) =>
      (steps next rest).map fun (text, last) => (c.toList ++ text, last)

theorem stepsAppend (state : State) (first second : List UInt8) :
    steps state (first ++ second) =
      (steps state first).bind fun (text, next) =>
        (steps next second).map fun (later, last) => (text ++ later, last) := by
  induction first generalizing state with
  | nil => simp [steps]
  | cons b rest ih =>
    simp only [List.cons_append, steps]
    cases (step 0 state b).toOption with
    | none => rfl
    | some next =>
      simp only [Option.bind_some, ih]
      cases steps next.2 rest with
      | none => rfl
      | some read => simp [Function.comp_def]

theorem decodeSteps (position : Nat) (state : State) (text : List Char) (bytes : List UInt8) :
    (decodeFrom position state text bytes).toOption =
      (steps state bytes).map fun (later, last) => (text.reverse ++ later, last) := by
  induction bytes generalizing position state text with
  | nil => simp [decodeFrom, steps, Except.toOption]
  | cons b rest ih =>
    rw [decodeFrom, steps, ← stepElsewhere position]
    cases step position state b with
    | error malformed => rfl
    | ok stepped =>
      obtain ⟨c, next⟩ := stepped
      simp only [ih (position + 1) next (c.toList ++ text)]
      cases c <;> simp [Except.toOption, Function.comp_def]

theorem decoderIncremental : decoder.Incremental where
  nothing (state : State) := rfl
  append (state : State) first second := by
    have run (state : State) (bytes : List UInt8) :
        steps state bytes = ((decodeFrom state.kept state [] bytes).mapError Malformed.message).toOption := by
      rw [mapErrorToOption, decodeSteps]
      simp
    have whole := stepsAppend state first second
    simp only [run] at whole
    exact whole

end Encoding.Utf8

end WindowLex
