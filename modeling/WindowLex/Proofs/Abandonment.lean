import WindowLex.Proofs.Computations
import WindowLex.Proofs.Refills

/-! Sources that could not be made. A fault that escapes while the two windows are filled leaves the caller no
source to close, and the stream, which is the source's own by then, stays open. -/
namespace WindowLex

inductive Abandoned (width : Nat) (fault : Fault) : List Exchange → Prop where
  | active {heard : List Exchange} (filling : Filling width heard) (escape : Escape heard (some fault)) :
      Abandoned width fault heard
  | standby {before heard : List Exchange} (filled : Filling width before)
      (full : width ≤ (givenByAll before).length) (contained : ∀ e ∈ before, e.Contained)
      (filling : Filling width heard) (escape : Escape heard (some fault)) :
      Abandoned width fault (before ++ heard)

namespace Source

variable {stream : Stream} {width : Width} {name : String} {s t : Source} {fault : Fault}

theorem starvedClosed (starved : s.Starved t) : t.closed = s.closed := by rw [starved.stream]

theorem primeAsked {answer : Except Fault Unit} (primed : (ofStream stream width name).prime = (answer, t)) :
    t.closed = false ∧ ∃ heard, stream.Heard heard t.stream ∧ Escape heard (faultOf answer) ∧
      ∀ fault, answer = .error fault → Abandoned width.size fault heard := by
  unfold prime at primed
  split at primed
  · rename_i fault u filled
    cases primed
    obtain ⟨heard, asked⟩ := fillAsked filled
    refine ⟨starvedClosed (fillStarved filled), heard, asked.asks, asked.escape, fun _ same => ?_⟩
    cases same
    exact .active (asked.filling rfl rfl) asked.escape
  · rename_i active u filled
    obtain ⟨first, asked⟩ := fillAsked filled
    have supplied := fillSupplied filled
    have opened : u.closed = false := supplied.closed
    have wide : u.width = width := supplied.kept.width
    split at primed
    · rename_i fault v filledToo
      cases primed
      obtain ⟨second, askedToo⟩ := fillAsked filledToo
      have starved := fillStarved filledToo
      have goes : u.exhausted = false := starved.goes
      have filling : Filling width.size second := wide ▸ askedToo.filling goes opened
      have full : width.size ≤ (givenByAll first).length := by
        rw [← asked.came active rfl, Array.length_toList]
        refine Nat.le_of_not_lt fun short => ?_
        rw [supplied.short rfl short] at goes
        contradiction
      refine ⟨(starvedClosed starved).trans opened, first ++ second,
        Stream.heardOn asked.asks askedToo.asks, escapeOn (escapeNone asked.escape) askedToo.escape,
        fun _ same => ?_⟩
      cases same
      exact .standby (asked.filling rfl rfl) full (escapeNone asked.escape) filling askedToo.escape
    · rename_i standby v filledToo
      cases primed
      obtain ⟨second, askedToo⟩ := fillAsked filledToo
      exact ⟨(fillSupplied filledToo).closed.trans opened, first ++ second,
        Stream.heardOn asked.asks askedToo.asks, escapeOn (escapeNone asked.escape) askedToo.escape, nofun⟩

end Source

theorem failedStartsStayOpen (stream : Stream) (width : Width) (name : String) :
    ∃ answer t heard, (Source.ofStream stream width name).prime = (answer, t) ∧ stream.Heard heard t.stream ∧
      (∀ fault, answer = .error fault ↔ fault.endsInput = false ∧ ∃ e ∈ heard, e.answer = .error fault) ∧
      (∀ fault, answer = .error fault → Abandoned width.size fault heard) ∧
      t.closed = false ∧ t.stream.closings = stream.closings := by
  rcases primed : (Source.ofStream stream width name).prime with ⟨answer, t⟩
  obtain ⟨closed, heard, asks, escape, abandoned⟩ := Source.primeAsked primed
  refine ⟨answer, t, heard, rfl, asks, fun fault => ?_, abandoned, closed, (Stream.heardKept asks).1⟩
  rw [← escapeExact escape fault]
  cases answer with
  | ok => simp [faultOf]
  | error other => simp [faultOf]

def abandonedStream : Stream where
  script := [.piece ['a', 'b', 'c'], .failure ⟨.other, "boom"⟩]

theorem abandonedHeldOpen : ∃ t, (Source.ofStream abandonedStream pairs).prime = (.error ⟨.other, "boom"⟩, t) ∧
    t.stream.asked = #[2, 2, 1] ∧ t.stream.closings = 0 ∧
    ¬ t.stream.closings = abandonedStream.closings + 1 := by
  have failed : (Source.ofStream abandonedStream pairs).prime.1 = .error ⟨.other, "boom"⟩ := by decide +kernel
  exact ⟨_, Prod.ext failed rfl, by decide +kernel, by decide +kernel, by decide +kernel⟩

end WindowLex
