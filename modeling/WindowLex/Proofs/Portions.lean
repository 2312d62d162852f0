import WindowLex.Proofs.Utf8
import WindowLex.TextFile

/-! The text of a file that is read in portions. Where all bytes can be decoded, neither the portions nor the
width of the windows show in it; where they cannot, it ends with a portion. -/
namespace WindowLex

inductive Text.Unified : List Char → List Char → Prop where
  | nothing : Unified [] []
  | pair {text text' : List Char} (rest : Unified text text') : Unified ('\r' :: '\n' :: text) ('\n' :: text')
  | lone {text text' : List Char} (alone : text.head? ≠ some '\n') (rest : Unified text text') :
      Unified ('\r' :: text) ('\n' :: text')
  | other {c : Char} {text text' : List Char} (plain : c ≠ '\r') (rest : Unified text text') :
      Unified (c :: text) (c :: text')

theorem unifiedFrom {text text' : List Char} (unified : Text.Unified text text') (done : List Char) :
    Text.unifyFrom done text = done.reverse ++ text' := by
  induction unified generalizing done with
  | nothing => rw [Text.unifyFrom, List.append_nil]
  | pair rest ih => rw [Text.unifyFrom, ih, List.reverse_cons, List.append_assoc, List.singleton_append]
  | lone alone rest ih =>
    rw [Text.unifyFrom, ih, List.reverse_cons, List.append_assoc, List.singleton_append]
    rintro behind rfl
    exact alone rfl
  | other plain rest ih =>
    rw [Text.unifyFrom, ih, List.reverse_cons, List.append_assoc, List.singleton_append]
    · rintro behind rfl _
      exact plain rfl
    · exact plain

theorem unifiedAlways (text : List Char) : ∃ text', Text.Unified text text' := by
  fun_induction Text.unifyFrom [] text with
  | case1 => exact ⟨[], .nothing⟩
  | case2 done text ih =>
    obtain ⟨text', unified⟩ := ih
    exact ⟨_, .pair unified⟩
  | case3 done text alone ih =>
    obtain ⟨text', unified⟩ := ih
    refine ⟨_, .lone (fun feed => ?_) unified⟩
    obtain ⟨behind, rfl⟩ := List.head?_eq_some_iff.mp feed
    exact alone behind rfl
  | case4 done c text pair plain ih =>
    obtain ⟨text', unified⟩ := ih
    exact ⟨_, .other plain unified⟩

theorem unifiedOnly {text text' : List Char} : Text.Unified text text' ↔ Text.unifyLineEnds text = text' := by
  constructor
  · intro unified
    rw [Text.unifyLineEnds, unifiedFrom unified, List.reverse_nil, List.nil_append]
  · rintro rfl
    obtain ⟨text', unified⟩ := unifiedAlways text
    rwa [Text.unifyLineEnds, unifiedFrom unified, List.reverse_nil, List.nil_append]

theorem unifiedAppend {first first' second second' : List Char} (left : Text.Unified first first')
    (right : Text.Unified second second')
    (apart : Text.endsInReturn first = true → second.head? ≠ some '\n') :
    Text.Unified (first ++ second) (first' ++ second') := by
  induction left with
  | nothing => exact right
  | @pair text text' rest ih => exact .pair (ih fun ends => apart (by cases text <;> simp_all [Text.endsInReturn]))
  | @lone text text' alone rest ih =>
    refine .lone ?_ (ih fun ends => apart (by cases text <;> simp_all [Text.endsInReturn]))
    cases text with
    | nil => exact apart rfl
    | cons c text => exact alone
  | @other c text text' plain rest ih =>
    exact .other plain (ih fun ends => apart (by cases text <;> simp_all [Text.endsInReturn]))

namespace Text

theorem unifyAppend {first second : List Char} (apart : endsInReturn first = true → second.head? ≠ some '\n') :
    unifyLineEnds (first ++ second) = unifyLineEnds first ++ unifyLineEnds second :=
  unifiedOnly.mp (unifiedAppend (unifiedOnly.mpr rfl) (unifiedOnly.mpr rfl) apart)

theorem endsOnly {text : List Char} : endsInReturn text = true ↔ ∃ front, text = front ++ ['\r'] := by
  rw [endsInReturn, decide_eq_true_iff, List.getLast?_eq_some_iff]

theorem withoutReturn (front : List Char) : withoutLastReturn (front ++ ['\r']) = front := by
  rw [withoutLastReturn, if_pos (endsOnly.mpr ⟨front, rfl⟩), List.dropLast_concat]

theorem withoutNone {text : List Char} (plain : endsInReturn text = false) : withoutLastReturn text = text :=
  if_neg (Bool.eq_false_iff.mp plain)

def lastReturn (text : List Char) : List Char := if endsInReturn text then ['\r'] else []

theorem returnBehind (text : List Char) : withoutLastReturn text ++ lastReturn text = text := by
  cases ends : endsInReturn text with
  | true =>
    obtain ⟨front, rfl⟩ := endsOnly.mp ends
    rw [withoutReturn, lastReturn, if_pos ends]
  | false => simp [withoutNone ends, lastReturn, ends]

/- The carriage return that is kept starts no line end of its own. -/
theorem keptApart (text later : List Char) :
    endsInReturn (withoutLastReturn text) = true → (lastReturn text ++ later).head? ≠ some '\n' := by
  cases ends : endsInReturn text with
  | true => simp [lastReturn, ends]
  | false => simp [withoutNone ends, ends]

theorem piecesJoin (text later : List Char) :
    unifyLineEnds (withoutLastReturn text) ++ unifyLineEnds (lastReturn text ++ later) =
      unifyLineEnds (text ++ later) := by
  rw [← unifyAppend (keptApart text later), ← List.append_assoc, returnBehind]

theorem withoutAppend (first : List Char) {second : List Char} (more : second ≠ []) :
    withoutLastReturn (first ++ second) = first ++ withoutLastReturn second := by
  have same : endsInReturn (first ++ second) = endsInReturn second := by
    rw [endsInReturn, endsInReturn, List.getLast?_append, List.getLast?_eq_some_getLast more, Option.some_or]
  rw [withoutLastReturn, withoutLastReturn, same, List.dropLast_append_of_ne_nil more]
  split <;> rfl

theorem withoutLastAppend (text later : List Char) :
    withoutLastReturn (text ++ later) =
      withoutLastReturn text ++ withoutLastReturn (lastReturn text ++ later) := by
  by_cases none : lastReturn text ++ later = []
  · obtain ⟨behind, rfl⟩ := List.append_eq_nil_iff.mp none
    rw [behind, List.append_nil, List.append_nil]
    exact (List.append_nil _).symm
  · rw [← withoutAppend _ none, ← List.append_assoc, returnBehind]

theorem piecesJoinShort (text later : List Char) :
    unifyLineEnds (withoutLastReturn text) ++ unifyLineEnds (withoutLastReturn (lastReturn text ++ later)) =
      unifyLineEnds (withoutLastReturn (text ++ later)) := by
  rw [withoutLastAppend text later]
  refine (unifyAppend fun ends feed => keptApart text later ends ?_).symm
  rw [← returnBehind (lastReturn text ++ later), List.head?_append, feed, Option.some_or]

end Text

section
variable {ε α β : Type} {x : Except ε α} {f : α → Except ε β} {error : ε} {b : β}

theorem thenTaken : x >>= f = .ok b ↔ ∃ a, x = .ok a ∧ f a = .ok b := by
  cases x <;> simp [bind, Except.bind]

theorem thenRefused : x >>= f = .error error ↔ x = .error error ∨ ∃ a, x = .ok a ∧ f a = .error error := by
  cases x <;> simp [bind, Except.bind]

end

namespace Decoder

variable {d : Decoder} {state next last : d.State} {first second text later : List UInt8}

theorem decodedOption {α : Type} {x : Except String α} {a : α} : x = .ok a ↔ x.toOption = some a := by
  cases x <;> simp [Except.toOption]

theorem decodedJoin {text later : List Char} (incremental : d.Incremental)
    (left : d.decode state first = .ok (text, next)) (right : d.decode next second = .ok (later, last)) :
    d.decode state (first ++ second) = .ok (text ++ later, last) := by
  rw [decodedOption, incremental.append, left]
  simp [Except.toOption, right]

theorem decodedSplit {whole : List Char} (incremental : d.Incremental)
    (decoded : d.decode state (first ++ second) = .ok (whole, last)) :
    ∃ text next later, d.decode state first = .ok (text, next) ∧ d.decode next second = .ok (later, last) ∧
      whole = text ++ later := by
  rw [decodedOption, incremental.append, Option.bind_eq_some_iff] at decoded
  obtain ⟨⟨text, next⟩, left, decoded⟩ := decoded
  obtain ⟨⟨later, last'⟩, right, same⟩ := Option.map_eq_some_iff.mp decoded
  cases same
  exact ⟨text, next, later, decodedOption.mpr left, decodedOption.mpr right, rfl⟩

end Decoder

namespace Reading
open Text

variable {d : Decoder} {r next : Reading d} {layer : TextLayer} {width : Nat} {portion bytes : List UInt8}

/- What is read of a file ends where a portion cannot be decoded, or it is all that its bytes decode to. -/
inductive Reaches (r : Reading d) (bytes : List UInt8) : List Char × Option String → Prop where
  | stopped {count : Nat} {text : List Char} {state : d.State} {message : String}
      (decoded : d.decode r.state (bytes.take count) = .ok (text, state)) :
      Reaches r bytes (unifyLineEnds (withoutLastReturn (r.kept ++ text)), some message)
  | ended {text last : List Char} {state : d.State} (decoded : d.decode r.state bytes = .ok (text, state))
      (finished : d.finish state = .ok last) : Reaches r bytes (unifyLineEnds (r.kept ++ text ++ last), none)

theorem taken {piece : List Char} (taken : r.take portion = .ok (piece, next)) :
    ∃ text, d.decode r.state portion = .ok (text, next.state) ∧
      piece = unifyLineEnds (withoutLastReturn (r.kept ++ text)) ∧ next.kept = lastReturn (r.kept ++ text) ∧
      next.given = r.given + piece.length := by
  rw [take, thenTaken] at taken
  obtain ⟨⟨text, state⟩, decoded, same⟩ := taken
  cases same
  exact ⟨text, decoded, rfl, rfl, rfl⟩

theorem finished {text : List Char} (finished : r.finish = .ok text) :
    ∃ last, d.finish r.state = .ok last ∧ text = unifyLineEnds (r.kept ++ last) := by
  rw [finish, thenTaken] at finished
  obtain ⟨last, done, same⟩ := finished
  cases same
  exact ⟨last, done, rfl⟩

theorem stopsHere (incremental : d.Incremental) (r : Reading d) (bytes : List UInt8) (message : String) :
    r.Reaches bytes ([], some message) := by
  have none : unifyLineEnds (withoutLastReturn (r.kept ++ [])) = [] := by
    unfold kept
    split <;> rfl
  have nothing : d.decode r.state (bytes.take 0) = .ok ([], r.state) := incremental.nothing r.state
  exact none ▸ .stopped nothing

theorem textReached (incremental : d.Incremental) (layer : TextLayer) (width : Nat) (r : Reading d)
    (bytes : List UInt8) : r.Reaches bytes (r.textFrom layer width bytes) := by
  fun_induction textFrom layer width r bytes with
  | case1 r text done =>
    obtain ⟨last, finished, rfl⟩ := finished done
    simpa using Reaches.ended (incremental.nothing r.state) finished
  | case2 r message refused => exact stopsHere incremental r [] message
  | case3 r b rest size message refused => exact stopsHere incremental r (b :: rest) message
  | case4 r b rest size piece next read later ih =>
    obtain ⟨text, decoded, rfl, kept, -⟩ := taken read
    have whole := List.take_append_drop size (b :: rest)
    change next.Reaches ((b :: rest).drop size) later at ih
    generalize later = reached at ih
    cases ih with
    | @stopped count behind state message further =>
      rw [kept, piecesJoinShort, List.append_assoc]
      have both := Decoder.decodedJoin incremental decoded further
      rw [← List.take_add] at both
      exact .stopped both
    | @ended behind last state further finished =>
      rw [kept, List.append_assoc, piecesJoin, List.append_assoc, ← List.append_assoc text, ← List.append_assoc]
      exact .ended (whole ▸ Decoder.decodedJoin incremental decoded further) finished

theorem readTaken {text : List Char} {state : d.State} (decoded : d.decode r.state portion = .ok (text, state)) :
    ∃ next : Reading d, r.take portion = .ok (unifyLineEnds (withoutLastReturn (r.kept ++ text)), next) ∧
      next.state = state ∧ next.kept = lastReturn (r.kept ++ text) := by
  simp only [take, decoded, bind, Except.bind, pure, Except.pure]
  exact ⟨_, rfl, rfl, rfl⟩

theorem textWhole (incremental : d.Incremental) (layer : TextLayer) (width : Nat) {text last : List Char}
    {state : d.State} (decoded : d.decode r.state bytes = .ok (text, state)) (done : d.finish state = .ok last) :
    r.textFrom layer width bytes = (unifyLineEnds (r.kept ++ text ++ last), none) := by
  fun_induction textFrom layer width r bytes generalizing text with
  | case1 r given ends =>
    obtain ⟨last', finished, rfl⟩ := finished ends
    cases (incremental.nothing r.state).symm.trans decoded
    cases done.symm.trans finished
    rw [List.append_nil]
  | case2 r message refused =>
    cases (incremental.nothing r.state).symm.trans decoded
    simp [finish, done, bind, Except.bind, pure, Except.pure] at refused
  | case3 r b rest size message =>
    rename_i refused
    rw [← List.take_append_drop size (b :: rest)] at decoded
    obtain ⟨first, next, later, left, right, rfl⟩ := Decoder.decodedSplit incremental decoded
    obtain ⟨reading, took, _⟩ := readTaken left
    cases took.symm.trans refused
  | case4 r b rest size piece next =>
    rename_i read later ih
    rw [← List.take_append_drop size (b :: rest)] at decoded
    obtain ⟨first, state', behind, left, right, rfl⟩ := Decoder.decodedSplit incremental decoded
    obtain ⟨reading, took, rfl, kept⟩ := readTaken left
    cases took.symm.trans read
    have rest : later = _ := ih right
    rw [rest, kept, List.append_assoc (lastReturn _), piecesJoin]
    simp

theorem cutBefore (text later : List Char) :
    unifyLineEnds (withoutLastReturn text) <+: unifyLineEnds (text ++ later) :=
  ⟨_, piecesJoin text later⟩

theorem cutBeforeCut (text later : List Char) :
    unifyLineEnds (withoutLastReturn text) <+: unifyLineEnds (withoutLastReturn (text ++ later)) :=
  ⟨_, piecesJoinShort text later⟩

theorem beginningsDecoded (incremental : d.Incremental) {state left right : d.State} {text other : List Char}
    {n m : Nat} (shorter : n ≤ m) (first : d.decode state (bytes.take n) = .ok (text, left))
    (second : d.decode state (bytes.take m) = .ok (other, right)) : ∃ later, other = text ++ later := by
  obtain ⟨k, rfl⟩ := Nat.exists_eq_add_of_le shorter
  rw [List.take_add] at second
  obtain ⟨text', next, later, begins, _, rfl⟩ := Decoder.decodedSplit incremental second
  cases first.symm.trans begins
  exact ⟨later, rfl⟩

theorem reachedComparable (incremental : d.Incremental) {first second : List Char × Option String}
    (left : r.Reaches bytes first) (right : r.Reaches bytes second) :
    first.1 <+: second.1 ∨ second.1 <+: first.1 := by
  have beforeEnd {n : Nat} {text whole last : List Char} {state final : d.State}
      (begins : d.decode r.state (bytes.take n) = .ok (text, state))
      (all : d.decode r.state bytes = .ok (whole, final)) :
      unifyLineEnds (withoutLastReturn (r.kept ++ text)) <+: unifyLineEnds (r.kept ++ whole ++ last) := by
    rw [← List.take_append_drop n bytes] at all
    obtain ⟨text', next, later, front, _, rfl⟩ := Decoder.decodedSplit incremental all
    cases begins.symm.trans front
    have cut := cutBefore (r.kept ++ text) (later ++ last)
    rwa [← List.append_assoc, List.append_assoc r.kept] at cut
  cases left with
  | @stopped n text state message begins =>
    cases right with
    | @stopped m other state' message' begins' =>
      rcases Nat.le_total n m with shorter | longer
      · obtain ⟨later, rfl⟩ := beginningsDecoded incremental shorter begins begins'
        exact .inl (List.append_assoc r.kept text later ▸ cutBeforeCut (r.kept ++ text) later)
      · obtain ⟨later, rfl⟩ := beginningsDecoded incremental longer begins' begins
        exact .inr (List.append_assoc r.kept other later ▸ cutBeforeCut (r.kept ++ other) later)
    | ended all done => exact .inl (beforeEnd begins all)
  | ended all done =>
    cases right with
    | stopped begins => exact .inr (beforeEnd begins all)
    | ended all' done' =>
      cases all.symm.trans all'
      cases done.symm.trans done'
      exact .inl (List.prefix_refl _)

end Reading

end WindowLex
