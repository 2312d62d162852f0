import WindowLex.Config.Width
import WindowLex.Stream

/-! What a stream delivers to a reader that fills windows of one width: the text up to the first read
that gives nothing or fails, and the failure. A stream that honours sizes gives no more than a request
asks for and fails in no way that escapes; filling a window takes the next stretch of its delivery. -/
namespace WindowLex

/- Inputs that answer every request for at least one character as a stream should. A whole text is given
out whatever was asked, so only the shortest ones honour every size. -/
def Reply.honours : Reply → Bool
  | .piece _ | .nothing => true
  | .whole text => text.length ≤ 1
  | .failure fault | .guarded _ fault => fault.endsInput

namespace Stream

def Honours (size : Nat) : Except Fault (List Char) → Prop
  | .ok text => text.length ≤ size
  | .error fault => fault.endsInput = true

def readAll (s : Stream) (sizes : List Nat) : Stream := sizes.foldl (fun s size => (s.read size).2) s

def HonoursSizes (s : Stream) : Prop :=
  ∀ sizes size, (∀ n ∈ sizes, 0 < n) → 0 < size → s.tooLarge size = false →
    Honours size ((s.readAll sizes).read size).1

/- Requests follow the filling of windows: each asks for what the window at hand still misses, and a new
window is begun where none is missing. -/
def request (width missing : Nat) : Nat := if missing = 0 then width else missing

def yieldFrom (s : Stream) (width missing : Nat) : List Char × Option Fault :=
  match _ : s.read (request width missing) with
  | (.ok [], _) => ([], none)
  | (.error fault, _) => ([], some fault)
  | (.ok (c :: piece), s') =>
    let later := s'.yieldFrom width (request width missing - (piece.length + 1))
    (c :: piece ++ later.1, later.2)
  termination_by s.size
  decreasing_by
    rename_i answered
    have size := readSize answered
    simp only [List.length_cons] at size
    omega

def delivered (s : Stream) (width : Nat) : List Char := (s.yieldFrom width 0).1

def failure (s : Stream) (width : Nat) : Option Fault := (s.yieldFrom width 0).2

structure Gives (s : Stream) (width : Width) (text : List Char) : Prop where
  honest : s.HonoursSizes
  allowed : s.tooLarge width.size = false
  whole : s.delivered width.size = text

theorem readLimit (s : Stream) (size : Nat) : (s.read size).2.limit = s.limit := by
  unfold read
  split <;> rfl

theorem readTooLarge (s : Stream) (size n : Nat) : (s.read size).2.tooLarge n = s.tooLarge n := by
  simp only [tooLarge, readLimit]

theorem tooLargeMono {s : Stream} {n m : Nat} (allowed : s.tooLarge m = false) (le : n ≤ m) :
    s.tooLarge n = false := by
  cases limit : s.limit with
  | none => simp [tooLarge, limit]
  | some most =>
    simp only [tooLarge, limit, Option.any_some, decide_eq_false_iff_not, Nat.not_lt] at allowed ⊢
    exact Nat.le_trans le allowed

theorem gatherTooLarge {s : Stream} {needed : Nat} (positive : 0 < needed)
    (large : s.tooLarge needed = true) (got : List Char) :
    ∃ s', s.gather needed got = (.error .sizeLimit, s') := by
  unfold gather
  rw [if_neg (Nat.ne_of_gt positive), read, large]
  exact ⟨_, rfl⟩

theorem honoursRead {s : Stream} (honest : s.HonoursSizes) {n : Nat} (positive : 0 < n)
    (allowed : s.tooLarge n = false) : Honours n (s.read n).1 :=
  honest [] n (by simp) positive allowed

theorem readHonest {s : Stream} (honest : s.HonoursSizes) {n : Nat} (positive : 0 < n) :
    (s.read n).2.HonoursSizes := by
  intro sizes size sizesPositive sizePositive allowed
  rw [readTooLarge] at allowed
  exact honest (n :: sizes) size (by simpa using ⟨positive, sizesPositive⟩) sizePositive allowed

theorem yieldFromNothing {s s' : Stream} {width missing : Nat}
    (answered : s.read (request width missing) = (.ok [], s')) :
    s.yieldFrom width missing = ([], none) := by
  rw [yieldFrom]
  split <;> simp_all

theorem yieldFromFailure {s s' : Stream} {width missing : Nat} {fault : Fault}
    (answered : s.read (request width missing) = (.error fault, s')) :
    s.yieldFrom width missing = ([], some fault) := by
  rw [yieldFrom]
  split <;> simp_all

theorem yieldFromPiece {s s' : Stream} {width missing : Nat} {c : Char} {piece : List Char}
    (answered : s.read (request width missing) = (.ok (c :: piece), s')) :
    s.yieldFrom width missing =
      (c :: piece ++ (s'.yieldFrom width (request width missing - (piece.length + 1))).1,
        (s'.yieldFrom width (request width missing - (piece.length + 1))).2) := by
  rw [yieldFrom]
  split <;> simp_all

theorem yieldFromRequest {width a b : Nat} (same : request width a = request width b) (s : Stream) :
    s.yieldFrom width a = s.yieldFrom width b := by
  rcases reads : s.read (request width b) with ⟨fault | given, s'⟩
  · rw [yieldFromFailure reads, yieldFromFailure (same ▸ reads)]
  · cases given with
    | nil => rw [yieldFromNothing reads, yieldFromNothing (same ▸ reads)]
    | cons c piece => rw [yieldFromPiece reads, yieldFromPiece (same ▸ reads), same]

theorem yieldFromWindow (s : Stream) (width : Nat) : s.yieldFrom width width = s.yieldFrom width 0 :=
  yieldFromRequest (by unfold request; split <;> rfl) s

structure Gathered (s : Stream) (width needed : Nat) (text : List Char) (cut : Option Fault)
    (s' : Stream) : Prop where
  honest : s'.HonoursSizes
  limit : s'.limit = s.limit
  stretch :
    (text.length = needed ∧ cut = none ∧
      s.yieldFrom width needed = (text ++ s'.delivered width, s'.failure width)) ∨
    (text.length < needed ∧ s.yieldFrom width needed = (text, cut))

theorem gatherYield {s : Stream} {width needed : Nat} (honest : s.HonoursSizes)
    (allowed : s.tooLarge width = false) (within : needed ≤ width) (got : List Char) :
    ∃ text cut s', s.gather needed got = (.ok (got ++ text, cut), s') ∧
      s.Gathered width needed text cut s' := by
  fun_induction gather s needed got with
  | case1 s got => exact ⟨[], none, s, by simp, honest, rfl, .inl ⟨rfl, rfl, rfl⟩⟩
  | case2 s needed got short s' answered =>
    have positive : 0 < needed := Nat.pos_of_ne_zero short
    have asked : request width needed = needed := if_neg short
    refine ⟨[], none, s', by simp, ?_, ?_, .inr ⟨positive, yieldFromNothing (asked ▸ answered)⟩⟩
    · simpa only [answered] using readHonest honest positive
    · simpa only [answered] using readLimit s needed
  | case3 s needed got short c piece s' answered ih =>
    have positive : 0 < needed := Nat.pos_of_ne_zero short
    have asked : request width needed = needed := if_neg short
    have fair := honoursRead honest positive (tooLargeMono allowed within)
    have limit := readLimit s needed
    have later := readHonest honest positive
    simp only [answered] at fair limit later
    obtain ⟨text, cut, s'', gathered, rest⟩ :=
      ih later (by simpa only [tooLarge, limit] using allowed) (by omega)
    have yields := yieldFromPiece (asked ▸ answered)
    rw [asked] at yields
    refine ⟨c :: piece ++ text, cut, s'', ?_, rest.honest, rest.limit.trans limit, ?_⟩
    · rw [gathered]; simp
    · simp only [Honours, List.length_cons] at fair
      rcases rest.stretch with ⟨full, whole, next⟩ | ⟨less, next⟩
      · refine .inl ⟨by simp only [List.length_append, List.length_cons, full]; omega, whole, ?_⟩
        rw [yields, next]; simp
      · refine .inr ⟨by simp only [List.length_append, List.length_cons]; omega, ?_⟩
        rw [yields, next]
  | case4 s needed got short fault s' answered ends =>
    have positive : 0 < needed := Nat.pos_of_ne_zero short
    have asked : request width needed = needed := if_neg short
    refine ⟨[], some fault, s', by simp, ?_, ?_, .inr ⟨positive, yieldFromFailure (asked ▸ answered)⟩⟩
    · simpa only [answered] using readHonest honest positive
    · simpa only [answered] using readLimit s needed
  | case5 s needed got short fault s' answered escapes =>
    have fair := honoursRead honest (Nat.pos_of_ne_zero short) (tooLargeMono allowed within)
    simp only [answered] at fair
    exact absurd fair escapes

def room (portion : Option Nat) (size : Nat) : Nat := (portion.map (min size)).getD size

theorem roomWithin (portion : Option Nat) (size : Nat) : room portion size ≤ size := by
  cases portion with
  | none => exact Nat.le_refl size
  | some most => exact Nat.min_le_left size most

theorem roomPositive {portion : Option Nat} {size : Nat} (gives : portion ≠ some 0)
    (positive : 0 < size) : 0 < room portion size := by
  cases portion with
  | none => exact positive
  | some most => exact Nat.lt_min.mpr ⟨positive, Nat.pos_of_ne_zero (by simpa using gives)⟩

theorem answerPiece (portion : Option Nat) (size : Nat) (text : List Char) (rest : List Reply) :
    answer portion size (.piece text :: rest) =
      (.ok (text.take (room portion size)),
        if text.drop (room portion size) = [] then rest
        else .piece (text.drop (room portion size)) :: rest) := by
  unfold room
  simp only [answer, List.splitAt_eq]
  cases left : text.drop ((portion.map (min size)).getD size) <;> simp

theorem answerHonours {portion : Option Nat} {size : Nat} {script : List Reply} (positive : 0 < size)
    (honest : ∀ r ∈ script, r.honours = true) :
    Honours size (answer portion size script).1 ∧
      ∀ r ∈ (answer portion size script).2, r.honours = true := by
  cases script with
  | nil => exact ⟨Nat.zero_le size, honest⟩
  | cons reply rest =>
    obtain ⟨fair, later⟩ := List.forall_mem_cons.mp honest
    cases reply with
    | piece text =>
      rw [answerPiece]
      refine ⟨Nat.le_trans (List.length_take_le ..) (roomWithin portion size), ?_⟩
      dsimp only
      split
      · exact later
      · exact List.forall_mem_cons.mpr ⟨rfl, later⟩
    | whole text =>
      have short : text.length ≤ 1 := by simpa [Reply.honours] using fair
      exact ⟨Nat.le_trans short positive, later⟩
    | nothing => exact ⟨Nat.zero_le size, later⟩
    | failure fault => exact ⟨fair, later⟩
    | guarded text fault =>
      simp only [answer]
      split
      · exact ⟨List.length_take_le .., List.forall_mem_cons.mpr ⟨fair, later⟩⟩
      · exact ⟨fair, later⟩

theorem scriptHonours {s : Stream} (honest : ∀ r ∈ s.script, r.honours = true) :
    s.HonoursSizes := by
  intro sizes size sizesPositive positive allowed
  induction sizes generalizing s with
  | nil =>
    simp only [readAll, List.foldl_nil, read, allowed]
    exact (answerHonours positive honest).1
  | cons n sizes ih =>
    obtain ⟨first, later⟩ := List.forall_mem_cons.mp sizesPositive
    refine ih (s := (s.read n).2) ?_ later ((readTooLarge ..).trans allowed)
    unfold read
    split
    · exact honest
    · exact (answerHonours first honest).2

/- A script of pieces, up to an empty piece, a reply of nothing or a failure: what it delivers does not
depend on the sizes asked. -/
def written : List Reply → List Char × Option Fault
  | .piece (c :: text) :: rest => (c :: text ++ (written rest).1, (written rest).2)
  | .failure fault :: _ => ([], some fault)
  | _ => ([], none)

def Sizeless (script : List Reply) : Prop :=
  ∀ r ∈ script, ∀ text fault, r ≠ .whole text ∧ r ≠ .guarded text fault

def followed (later : List Char × Option Fault) : Except Fault (List Char) → List Char × Option Fault
  | .ok [] => ([], none)
  | .ok (c :: piece) => (c :: piece ++ later.1, later.2)
  | .error fault => ([], some fault)

theorem answerWritten {portion : Option Nat} {size : Nat} {script : List Reply}
    (sizeless : Sizeless script) (gives : portion ≠ some 0) (positive : 0 < size) :
    Sizeless (answer portion size script).2 ∧
      written script =
        followed (written (answer portion size script).2) (answer portion size script).1 := by
  cases script with
  | nil => exact ⟨sizeless, rfl⟩
  | cons reply tail =>
    have later : Sizeless tail := fun r member => sizeless r (List.mem_cons_of_mem _ member)
    cases reply with
    | piece text =>
      have more := roomPositive gives positive
      rw [answerPiece]
      generalize room portion size = n at more
      cases n with
      | zero => contradiction
      | succ n =>
        cases text with
        | nil => exact ⟨later, rfl⟩
        | cons c text =>
          have whole := List.take_append_drop n text
          simp only [List.take_succ_cons, List.drop_succ_cons]
          cases left : text.drop n with
          | nil =>
            rw [left, List.append_nil] at whole
            exact ⟨later, by simp [written, followed, whole]⟩
          | cons d behind =>
            rw [left] at whole
            refine ⟨List.forall_mem_cons.mpr ⟨by simp, later⟩, ?_⟩
            have same : text ++ (written tail).1 =
                text.take n ++ (d :: behind ++ (written tail).1) := by
              rw [← List.append_assoc, whole]
            simp [written, followed, same]
    | whole text => exact absurd rfl (sizeless _ (List.mem_cons_self ..) text .sizeLimit).1
    | nothing => exact ⟨later, rfl⟩
    | failure fault => exact ⟨later, rfl⟩
    | guarded text fault => exact absurd rfl (sizeless _ (List.mem_cons_self ..) text fault).2

theorem readAllowed {s : Stream} {size : Nat} (allowed : s.tooLarge size = false) :
    ∃ s', s.read size = ((answer s.portion size s.script).1, s') ∧
      s'.script = (answer s.portion size s.script).2 ∧ s'.portion = s.portion ∧
      s'.tooLarge = s.tooLarge := by
  simp only [read, allowed]
  exact ⟨_, rfl, rfl, rfl, rfl⟩

theorem yieldWritten {s : Stream} {width missing : Nat} (sizeless : Sizeless s.script)
    (gives : s.portion ≠ some 0) (positive : 0 < width) (allowed : s.tooLarge width = false)
    (within : missing ≤ width) : s.yieldFrom width missing = written s.script := by
  have asked : 0 < request width missing ∧ request width missing ≤ width := by
    unfold request
    split <;> omega
  obtain ⟨later, goes⟩ := answerWritten sizeless gives asked.1
  obtain ⟨s', reads, script, portion, limit⟩ := readAllowed (tooLargeMono allowed asked.2)
  rw [goes]
  cases answered : (answer s.portion (request width missing) s.script).1 with
  | error fault => exact yieldFromFailure (answered ▸ reads)
  | ok given =>
    rw [answered] at reads
    cases given with
    | nil => exact yieldFromNothing reads
    | cons c piece =>
      have size := readSize reads
      rw [yieldFromPiece reads, yieldWritten (script ▸ later) (portion ▸ gives) positive
        (limit ▸ allowed) (by omega), script]
      rfl
  termination_by s.size
  decreasing_by simp only [List.length_cons] at size; omega

theorem deliveredWritten {s : Stream} {width : Nat} (sizeless : Sizeless s.script)
    (gives : s.portion ≠ some 0) (positive : 0 < width) (allowed : s.tooLarge width = false) :
    s.delivered width = (written s.script).1 ∧ s.failure width = (written s.script).2 := by
  have whole : s.yieldFrom width 0 = written s.script :=
    yieldWritten sizeless gives positive allowed (Nat.zero_le width)
  exact ⟨congrArg Prod.fst whole, congrArg Prod.snd whole⟩

theorem scriptGives {s : Stream} {width : Width} (honest : ∀ r ∈ s.script, r.honours = true)
    (sizeless : Sizeless s.script) (gives : s.portion ≠ some 0) (allowed : s.tooLarge width.size = false) :
    s.Gives width (written s.script).1 :=
  ⟨scriptHonours honest, allowed, (deliveredWritten sizeless gives width.sizePositive allowed).1⟩

theorem textAllowed {text : List Char} {width : Nat} :
    (ofText text).tooLarge width = false ↔ width ≤ sizeLimit := by
  simp [ofText, tooLarge]

theorem textHonours (text : List Char) : (ofText text).HonoursSizes :=
  scriptHonours (by simp [ofText, Reply.honours])

theorem textDelivered (text : List Char) {width : Nat} (positive : 0 < width)
    (allowed : width ≤ sizeLimit) :
    (ofText text).delivered width = text ∧ (ofText text).failure width = none := by
  have whole := deliveredWritten (s := ofText text) (by simp [Sizeless, ofText]) (by simp [ofText])
    positive (textAllowed.mpr allowed)
  cases text <;> simpa [ofText, written] using whole

theorem textGives {width : Width} (fits : width.size ≤ sizeLimit) (text : List Char) :
    (ofText text).Gives width text :=
  ⟨textHonours text, textAllowed.mpr fits, (textDelivered text width.sizePositive fits).1⟩

end Stream

end WindowLex
