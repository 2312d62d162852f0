import WindowLex.Proofs.BrokenFiles

/-! Files that are read on request. Bytes are decoded whenever less text is ready than is asked for. As long as the
requests are for one window each, they are answered as by the stream of the file, which knows all of its text from
the start. -/
namespace WindowLex

structure Reader (d : Decoder) where
  reading : Reading d := {}
  ready : List Char := []
  left : List UInt8
  ended : Bool := false

namespace Reader

variable {d : Decoder}

def fillFrom (layer : TextLayer) (size : Nat) (reading : Reading d) (ready : List Char) (left : List UInt8) :
    Except String (Reader d) :=
  if size ≤ ready.length then .ok { reading, ready, left }
  else match left with
    | [] => do return { reading, ready := ready ++ (← reading.finish), left := [], ended := true }
    | b :: rest =>
      let portion := layer.portion reading.bytes reading.chars (size - ready.length)
      match reading.take ((b :: rest).take portion) with
      | .error message => .error message
      | .ok (piece, next) => fillFrom layer size next (ready ++ piece) ((b :: rest).drop portion)
  termination_by left.length
  decreasing_by
    rw [List.length_drop]
    exact Nat.sub_lt (Nat.succ_pos _) (layer.portionPositive ..)

def fill (layer : TextLayer) (size : Nat) (r : Reader d) : Except String (Reader d) :=
  if r.ended then .ok r else fillFrom layer size r.reading r.ready r.left

def read (layer : TextLayer) (size : Nat) (r : Reader d) : Except String (List Char × Reader d) := do
  let r ← r.fill layer size
  return (r.ready.take size, { r with ready := r.ready.drop size })

def windows (layer : TextLayer) (width : Nat) (r : Reader d) : Nat → List (List Char) × Option String
  | 0 => ([], none)
  | more + 1 =>
    match r.read layer width with
    | .error message => ([], some message)
    | .ok (text, r) =>
      let later := r.windows layer width more
      (text :: later.1, later.2)

/- The text still to come if windows are filled one after another, and what ends it. -/
def ahead (layer : TextLayer) (width : Nat) (r : Reader d) : List Char × Option String :=
  if r.ended then (r.ready, none)
  else
    let later := r.reading.textFrom layer width r.left
    (r.ready ++ later.1, later.2)

/- What has been given out is whole windows, so that what the next one lacks follows from how much was decoded. -/
def Aligned (width : Nat) (r : Reader d) : Prop :=
  r.ended = true ∨ ∃ windows, r.reading.given = width * windows + r.ready.length

section
variable {layer : TextLayer} {width : Nat} {reading next : Reading d} {ready piece : List Char} {left : List UInt8}
  {r : Reader d} {message : String}

theorem lacking {windows : Nat} (given : reading.given = width * windows + ready.length)
    (less : ¬ width ≤ ready.length) : width - reading.given % width = width - ready.length := by
  rw [given, Nat.mul_add_mod, Nat.mod_eq_of_lt (Nat.lt_of_not_le less)]

theorem takenWindows {windows : Nat} {portion : List UInt8} (given : reading.given = width * windows + ready.length)
    (taken : reading.take portion = .ok (piece, next)) :
    next.given = width * windows + (ready ++ piece).length := by
  obtain ⟨text, decoded, rfl, kept, counted⟩ := Reading.taken taken
  rw [counted, given, List.length_append, Nat.add_assoc]

theorem aheadTaken {windows : Nat} {b : UInt8} {rest : List UInt8}
    (given : reading.given = width * windows + ready.length) (less : ¬ width ≤ ready.length)
    (taken : reading.take ((b :: rest).take (layer.portion reading.bytes reading.chars (width - ready.length))) =
      .ok (piece, next)) :
    let portion := layer.portion reading.bytes reading.chars (width - ready.length)
    ahead layer width { reading, ready, left := b :: rest } =
      ahead layer width { reading := next, ready := ready ++ piece, left := (b :: rest).drop portion } := by
  simp [ahead, Reading.textFrom, lacking given less, taken]

theorem filledFrom {windows : Nat} (given : reading.given = width * windows + ready.length)
    (fills : fillFrom layer width reading ready left = .ok r) :
    r.Aligned width ∧ r.ahead layer width = ahead layer width { reading, ready, left } ∧
      (r.ended = true ∨ width ≤ r.ready.length) := by
  fun_induction fillFrom layer width reading ready left with
  | case1 reading ready left enough =>
    cases fills
    exact ⟨.inr ⟨windows, given⟩, rfl, .inr enough⟩
  | case2 reading ready short =>
    obtain ⟨text, finish, same⟩ := thenTaken.mp fills
    cases same
    exact ⟨.inl rfl, by simp [ahead, Reading.textFrom, finish], .inl rfl⟩
  | case3 => cases fills
  | case4 reading ready short b rest portion piece next took ih =>
    obtain ⟨aligned, same, enough⟩ := ih (takenWindows given took) fills
    exact ⟨aligned, same.trans (aheadTaken given short took).symm, enough⟩

theorem unfilledFrom {windows : Nat} (given : reading.given = width * windows + ready.length)
    (refused : fillFrom layer width reading ready left = .error message) :
    ∃ text, ahead layer width { reading, ready, left } = (text, some message) ∧ text.length < width := by
  fun_induction fillFrom layer width reading ready left with
  | case1 => cases refused
  | case2 reading ready short =>
    rcases thenRefused.mp refused with finish | ⟨text, finish, same⟩
    · exact ⟨ready, by simp [ahead, Reading.textFrom, finish], Nat.lt_of_not_le short⟩
    · cases same
  | case3 reading ready short b rest portion other took =>
    cases refused
    refine ⟨ready, ?_, Nat.lt_of_not_le short⟩
    simp [ahead, Reading.textFrom, lacking given short, took, portion]
  | case4 reading ready short b rest portion piece next took ih =>
    obtain ⟨text, same, less⟩ := ih (takenWindows given took) refused
    exact ⟨text, (aheadTaken given short took).trans same, less⟩

theorem openParts (opened : r.ended = false) : r = { reading := r.reading, ready := r.ready, left := r.left } := by
  cases r
  cases opened
  rfl

theorem filled {f : Reader d} (aligned : r.Aligned width) (fills : r.fill layer width = .ok f) :
    f.Aligned width ∧ f.ahead layer width = r.ahead layer width ∧ (f.ended = true ∨ width ≤ f.ready.length) := by
  rw [fill] at fills
  cases ended : r.ended with
  | true =>
    cases (if_pos ended).symm.trans fills
    exact ⟨aligned, rfl, .inl ended⟩
  | false =>
    obtain ⟨windows, given⟩ := aligned.resolve_left (by simp [ended])
    rw [openParts ended]
    exact filledFrom given ((if_neg (by simp [ended])).symm.trans fills)

theorem unfilled (aligned : r.Aligned width) (refused : r.fill layer width = .error message) :
    ∃ text, r.ahead layer width = (text, some message) ∧ text.length < width := by
  rw [fill] at refused
  cases ended : r.ended with
  | true => cases (if_pos ended).symm.trans refused
  | false =>
    obtain ⟨windows, given⟩ := aligned.resolve_left (by simp [ended])
    rw [openParts ended]
    exact unfilledFrom given ((if_neg (by simp [ended])).symm.trans refused)

theorem givenOut {f : Reader d} (aligned : f.Aligned width) (enough : f.ended = true ∨ width ≤ f.ready.length) :
    Aligned width { f with ready := f.ready.drop width } := by
  rcases enough with ended | full
  · exact .inl ended
  · refine aligned.imp_right ?_
    rintro ⟨windows, given⟩
    refine ⟨windows + 1, ?_⟩
    rw [given, Nat.mul_succ, List.length_drop]
    omega

end

end Reader

/- The replies that tell a text and what ends it. A text that has been told may be left out. -/
inductive Tells : List Char × Option String → List Reply → Prop where
  | whole {text : List Char} : Tells (text, none) [.piece text]
  | nothing : Tells ([], none) []
  | guarded {text : List Char} {message : String} :
      Tells (text, some message) [.guarded text ⟨.badValue, message⟩]

section
variable {width : Nat} {script : List Reply} {text more : List Char} {ending : Option String} {message : String}

theorem answerTells (tells : Tells (text ++ more, ending) script) (within : text.length ≤ width)
    (full : text.length = width ∨ (more, ending) = ([], none)) :
    ∃ later, Stream.answer none width script = (.ok text, later) ∧ Tells (more, ending) later := by
  generalize joined : text ++ more = whole at tells
  cases tells with
  | whole =>
    subst joined
    have split : (text ++ more).splitAt width = (text, more) := by
      rw [List.splitAt_eq]
      rcases full with full | rest
      · simp [← full]
      · obtain ⟨rfl, -⟩ := Prod.mk.inj rest
        simp [within]
    cases more with
    | nil => exact ⟨[], by simp only [Stream.answer, Option.map_none, Option.getD_none, split], .nothing⟩
    | cons c more =>
      refine ⟨[.piece (c :: more)], ?_, .whole⟩
      simp only [Stream.answer, Option.map_none, Option.getD_none, split]
  | nothing =>
    obtain ⟨rfl, rfl⟩ := List.append_eq_nil_iff.mp joined
    exact ⟨[], rfl, .nothing⟩
  | guarded =>
    subst joined
    have full := full.resolve_right (by simp)
    refine ⟨[.guarded more _], ?_, .guarded⟩
    simp [Stream.answer, ← full]

theorem answerRefuses (tells : Tells (text, some message) script) (less : text.length < width) :
    (Stream.answer none width script).1 = .error ⟨.badValue, message⟩ := by
  cases tells with
  | guarded => simp [Stream.answer, Nat.ne_of_lt less, Nat.min_eq_right (Nat.le_of_lt less)]

end

structure Tracks {d : Decoder} (layer : TextLayer) (width : Nat) (r : Reader d) (s : Stream) : Prop where
  aligned : r.Aligned width
  tells : Tells (r.ahead layer width) s.script
  allowed : s.tooLarge width = false
  portion : s.portion = none

section
variable {d : Decoder} {layer : TextLayer} {width : Nat} {r r' : Reader d} {s : Stream} {text : List Char}
  {message : String}

theorem readTracks (tracks : Tracks layer width r s) (reads : r.read layer width = .ok (text, r')) :
    ∃ s', s.read width = (.ok text, s') ∧ Tracks layer width r' s' := by
  obtain ⟨f, fills, same⟩ := thenTaken.mp reads
  cases same
  obtain ⟨aligned, same, enough⟩ := Reader.filled tracks.aligned fills
  obtain ⟨s', answered, script, portion, limit⟩ := Stream.readAllowed tracks.allowed
  have ahead : r.ahead layer width = (f.ready.take width ++
      (Reader.ahead layer width { f with ready := f.ready.drop width }).1,
      (Reader.ahead layer width { f with ready := f.ready.drop width }).2) := by
    rw [← same]
    cases ended : f.ended <;> simp [Reader.ahead, ended, ← List.append_assoc]
  have full : (f.ready.take width).length = width ∨
      Reader.ahead layer width { f with ready := f.ready.drop width } = ([], none) := by
    rcases Nat.lt_or_ge f.ready.length width with less | full
    · have ended := enough.resolve_right (Nat.not_le.mpr less)
      simp [Reader.ahead, ended, Nat.le_of_lt less]
    · exact .inl (List.length_take_of_le full)
  obtain ⟨later, answers, tells⟩ := answerTells (ahead ▸ tracks.tells) (by simp) full
  rw [tracks.portion, answers] at answered script
  exact ⟨s', answered, {
    aligned := Reader.givenOut aligned enough
    tells := script ▸ tells
    allowed := limit ▸ tracks.allowed
    portion := portion.trans tracks.portion }⟩

theorem readRefused (tracks : Tracks layer width r s) (refused : r.read layer width = .error message) :
    (s.read width).1 = .error ⟨.badValue, message⟩ := by
  rcases thenRefused.mp refused with fills | ⟨f, fills, same⟩
  · obtain ⟨text, ahead, less⟩ := Reader.unfilled tracks.aligned fills
    obtain ⟨s', answered, -⟩ := Stream.readAllowed tracks.allowed
    rw [answered, tracks.portion]
    exact answerRefuses (ahead ▸ tracks.tells) less
  · cases same

end

def Stream.windows (width : Nat) (s : Stream) : Nat → List (List Char) × Option Fault
  | 0 => ([], none)
  | more + 1 =>
    match s.read width with
    | (.error fault, _) => ([], some fault)
    | (.ok text, s) =>
      let later := s.windows width more
      (text :: later.1, later.2)

theorem windowsTrack {d : Decoder} {layer : TextLayer} {width : Nat} {r : Reader d} {s : Stream}
    (tracks : Tracks layer width r s) (count : Nat) :
    s.windows width count =
      ((r.windows layer width count).1, (r.windows layer width count).2.map (⟨.badValue, ·⟩)) := by
  induction count generalizing r s with
  | zero => rfl
  | succ more ih =>
    rw [Stream.windows, Reader.windows]
    cases reads : r.read layer width with
    | error message =>
      have refused := readRefused tracks reads
      split <;> simp_all
    | ok given =>
      obtain ⟨s', answered, tracks'⟩ := readTracks tracks reads
      simp [answered, ih tracks']

theorem fileTracked (e : Encoding) (layer : TextLayer) (bytes : List UInt8) {width : Width}
    (fits : width.size ≤ sizeLimit) :
    Tracks layer width.size ({ left := bytes } : Reader (e.decoder layer.foreign))
      (.ofBytes e bytes width.size layer) where
  aligned := .inr ⟨0, rfl⟩
  tells := by
    have ahead : Reader.ahead layer width.size ({ left := bytes } : Reader (e.decoder layer.foreign)) =
        e.textFrom layer bytes width.size := rfl
    rw [ahead, Stream.ofBytes]
    split
    · next text read => exact read ▸ .whole
    · next text message read => exact read ▸ .guarded
  allowed := by simpa [Stream.ofBytes, Stream.tooLarge] using fits
  portion := rfl

/- However a file is sized into portions and whatever its bytes are, its windows come as they are asked for. -/
theorem fileRequested (e : Encoding) (layer : TextLayer) (bytes : List UInt8) {width : Width}
    (fits : width.size ≤ sizeLimit) (count : Nat) :
    let r : Reader (e.decoder layer.foreign) := { left := bytes }
    (Stream.ofBytes e bytes width.size layer).windows width.size count =
      ((r.windows layer width.size count).1, (r.windows layer width.size count).2.map (⟨.badValue, ·⟩)) :=
  windowsTrack (fileTracked e layer bytes fits) count

end WindowLex
