import WindowLex.Proofs.Reading
import WindowLex.Proofs.Tiling

/-! Tokens pulled off the windows. What a lexer gives out and records from where it stands on is told from
the text ahead of it as a whole, so that neither the width of the windows nor the reads show in it. -/
namespace WindowLex
open Lexical Lexeme

namespace Collector

theorem addAllAppend (k : Collector) (left right : List Diagnostic) :
    k.addAll (left ++ right) = (k.addAll left).addAll right := List.foldl_append

theorem addAllStored {k : Collector} {problems : List Diagnostic}
    (room : ((k.stored.size + problems.length : Nat) : Int) ≤ k.limit) :
    (k.addAll problems).stored.toList = k.stored.toList ++ problems := by
  induction problems generalizing k with
  | nil => simp [addAll]
  | cons d problems ih =>
    have added : k.add d = { k with stored := k.stored.push d } := by
      rw [add, if_neg (by simp only [List.length_cons] at room; omega)]
    have rest := ih (k := k.add d) (by simp [added] at room ⊢; omega)
    rw [addAll, List.foldl_cons, ← addAll, rest, added]
    simp

end Collector

theorem Source.passedNoted {s s' : Source} {text : List Char} (passed : s.Passed text s') (event : Event) :
    s.Passed text (s'.note event) where
  sound := ⟨⟨passed.sound.honest, passed.sound.allowed, passed.sound.opened, passed.sound.whole⟩,
    passed.sound.inside, passed.sound.unspent, passed.sound.activeFits, passed.sound.standbyFits,
    passed.sound.last, passed.sound.short⟩
  ahead := passed.ahead
  position := passed.position
  ending := passed.ending
  name := passed.name

namespace Lexer

structure Pulled (l : Lexer) (text : List Char) (problems : List Diagnostic) (l' : Lexer) : Prop where
  passed : l.source.Passed text l'.source
  config : l'.config = l.config
  diagnostics : l'.diagnostics = l.diagnostics.addAll problems

theorem pulledOn {l m n : Lexer} {first second : List Char} {before behind : List Diagnostic}
    (left : l.Pulled first before m) (right : m.Pulled second behind n) :
    l.Pulled (first ++ second) (before ++ behind) n where
  passed := Source.passedOn left.passed right.passed
  config := right.config.trans left.config
  diagnostics := by rw [right.diagnostics, left.diagnostics, Collector.addAllAppend]

theorem recordCutPulled {l : Lexer} {s : Source} {text : List Char} (passed : l.source.Passed text s)
    (lexeme : Lexeme) (start : Position) :
    l.Pulled text (cuts l.source.name [⟨lexeme, start⟩]) ({ l with source := s }.recordCut lexeme start) ∧
      ({ l with source := s }.recordCut lexeme start).ended = l.ended := by
  cases short : lexeme.cutOff with
  | true =>
    have recorded : { l with source := s }.recordCut lexeme start =
        { l with
          source := s.note (.unterminated ⟨s.name, start⟩)
          diagnostics := l.diagnostics.add (.unterminatedString (some ⟨s.name, start⟩)) } := by
      simp [recordCut, short]
    rw [recorded, passed.name]
    exact ⟨⟨Source.passedNoted passed _, rfl, by simp [cuts, short, Collector.addAll]⟩, rfl⟩
  | false =>
    have same : { l with source := s }.recordCut lexeme start = { l with source := s } := by
      simp [recordCut, short]
    rw [same]
    exact ⟨⟨passed, rfl, by simp [cuts, short, Collector.addAll]⟩, rfl⟩

theorem givePulled {l m : Lexer} {text : List Char} {problems : List Diagnostic}
    (pulled : l.Pulled text problems m) (kind : Kind) (lexeme : String) (position : Position) :
    ∃ l', m.give kind lexeme position = (⟨kind, lexeme, position, l.source.name⟩, l') ∧
      l.Pulled text problems l' ∧ l'.ended = m.ended := by
  refine ⟨(m.give kind lexeme position).2, ?_,
    ⟨Source.passedNoted pulled.passed _, pulled.config, pulled.diagnostics⟩, rfl⟩
  rw [← pulled.passed.name]
  rfl

theorem nextTakes {l : Lexer} {first : Char} {rest : List Char} (sound : l.source.Sound)
    (here : l.source.ahead.dropWhile isGap = first :: rest) {start : Position}
    (place : start = l.source.position.after (l.source.ahead.takeWhile isGap)) :
    ∃ l', l.next = (.ok (Placed.token l.source.name ⟨(split l.config first rest).1, start⟩), l') ∧
      l.Pulled (l.source.ahead.takeWhile isGap ++ (split l.config first rest).1.written)
        (cuts l.source.name [⟨(split l.config first rest).1, start⟩]) l' ∧ l'.ended = l.ended := by
  obtain ⟨s, skipped, gap⟩ := Source.takeWhilePassed sound isGap []
  have ahead : s.ahead = first :: rest := by
    rw [← here]
    exact Source.passedAhead gap List.takeWhile_append_dropWhile.symm
  have current : s.current = some first := by rw [Source.currentAhead gap.sound, ahead]; rfl
  have position : s.position = start := gap.position.trans place.symm
  obtain ⟨s', scanned, lexeme⟩ := Source.scanPassed gap.sound ahead l.config
  obtain ⟨pulled, kept⟩ := recordCutPulled (Source.passedOn gap lexeme) (split l.config first rest).1 start
  obtain ⟨l', given, taken, ended⟩ := givePulled pulled (split l.config first rest).1.kind
    (String.ofList (split l.config first rest).1.text) start
  refine ⟨l', ?_, taken, ended.trans kept⟩
  simp only [next, skipped, current, scanned, position, given]
  rfl

theorem reachEndPulled {l : Lexer} {s : Source} {text : List Char} (passed : l.source.Passed text s)
    (done : s.exhausted = true) :
    l.Pulled text (if l.ended then [] else l.source.ending.toList) { l with source := s }.reachEnd ∧
      { l with source := s }.reachEnd.ended = true := by
  have ending : s.readError = l.source.ending := (Source.endingDone done).symm.trans passed.ending
  unfold reachEnd
  by_cases reported : l.ended
  · rw [if_pos reported, if_pos reported]
    exact ⟨⟨passed, rfl, rfl⟩, reported⟩
  · rw [if_neg reported, if_neg reported]
    refine ⟨⟨Source.passedNoted passed _, rfl, ?_⟩, rfl⟩
    simp only [ending]
    cases l.source.ending <;> rfl

theorem nextEnds {l : Lexer} (sound : l.source.Sound) (blank : l.source.ahead.dropWhile isGap = []) :
    ∃ l', l.next = (.ok ⟨.endOfInput, Token.endLexeme, l.source.position.after l.source.ahead,
        l.source.name⟩, l') ∧
      l.Pulled l.source.ahead (if l.ended then [] else l.source.ending.toList) l' ∧ l'.ended = true := by
  obtain ⟨s, skipped, gap⟩ := Source.takeWhilePassed sound isGap []
  have whole : l.source.ahead.takeWhile isGap = l.source.ahead := by
    have parts := List.takeWhile_append_dropWhile (p := isGap) (l := l.source.ahead)
    rwa [blank, List.append_nil] at parts
  rw [whole] at gap
  have ahead : s.ahead = [] := Source.passedAhead gap (List.append_nil _).symm
  have current : s.current = none := by rw [Source.currentAhead gap.sound, ahead]; rfl
  obtain ⟨pulled, reached⟩ := reachEndPulled gap (Source.exhaustedDone gap.sound ahead)
  obtain ⟨l', given, taken, ended⟩ := givePulled pulled .endOfInput Token.endLexeme s.position
  refine ⟨l', ?_, taken, ended.trans reached⟩
  simp only [next, skipped, current, given]
  rw [gap.position]

def upcoming (l : Lexer) : List Token :=
  (allFrom l.config l.source.position l.source.ahead).map (Placed.token l.source.name) ++
    [⟨.endOfInput, Token.endLexeme, l.source.position.after l.source.ahead, l.source.name⟩]

def impending (l : Lexer) : List Diagnostic :=
  cuts l.source.name (allFrom l.config l.source.position l.source.ahead) ++
    if l.ended then [] else l.source.ending.toList

inductive Pull (l : Lexer) (token : Token) (l' : Lexer) : Prop where
  | last (isEnd : token.isEnd = true) (coming : l.upcoming = [token])
      (pulled : l.Pulled l.source.ahead l.impending l') (ended : l'.ended = true)
  | more {text problems} (inside : token.isEnd = false) (coming : l.upcoming = token :: l'.upcoming)
      (recording : l.impending = problems ++ l'.impending) (pulled : l.Pulled text problems l')

theorem nextPull {l : Lexer} (sound : l.source.Sound) :
    ∃ token l', l.next = (.ok token, l') ∧ l.Pull token l' := by
  cases left : l.source.ahead.dropWhile isGap with
  | nil =>
    obtain ⟨l', pulled, gone, ended⟩ := nextEnds sound left
    have impending : l.impending = if l.ended then [] else l.source.ending.toList := by
      simp [impending, allFromBlank left, cuts]
    rw [← impending] at gone
    exact ⟨_, l', pulled, .last rfl (by simp [upcoming, allFromBlank left]) gone ended⟩
  | cons first rest =>
    obtain ⟨l', pulled, taken, ended⟩ := nextTakes sound left rfl
    have whole : l.source.ahead =
        (l.source.ahead.takeWhile isGap ++ (split l.config first rest).1.written) ++
          (split l.config first rest).2 := by
      rw [List.append_assoc, splitWritten, ← left, List.takeWhile_append_dropWhile]
    have behind := Source.passedAhead taken.passed whole
    have position := taken.passed.position
    have last : l.source.position.after l.source.ahead = l'.source.position.after l'.source.ahead := by
      rw [position, behind, ← Position.afterAppend, ← whole]
    rw [Position.afterAppend] at position
    refine ⟨_, l', pulled, .more (decide_eq_false (cutKind (splitCut l.config first rest))) ?_ ?_ taken⟩
    · simp only [upcoming, last, allFromTakes left, taken.config, position, behind, taken.passed.name,
        List.map_cons, List.cons_append]
    · simp only [impending, allFromTakes left, taken.config, position, behind, taken.passed.name,
        taken.passed.ending, ended, ← List.append_assoc, ← cutsCons]

theorem pullOf {l l' : Lexer} {token : Token} (sound : l.source.Sound) (here : l.next = (.ok token, l')) :
    l.Pull token l' := by
  obtain ⟨t, m, pulled, pull⟩ := nextPull sound
  obtain ⟨rfl, rfl⟩ : token = t ∧ l' = m := by simpa [here] using pulled
  exact pull

-- The induction follows the pulls; what is still to come from a lexer is the invariant of the run.
theorem tokensFromPulled {l : Lexer} (sound : l.source.Sound) (taken : List Token) :
    ∃ l', l.tokensFrom taken = (.ok (taken.reverse ++ l.upcoming), l') ∧
      l.Pulled l.source.ahead l.impending l' ∧ l'.ended = true := by
  fun_induction tokensFrom l taken with
  | case1 l taken fault l' escaped =>
    obtain ⟨token, m, pulled, _⟩ := nextPull sound
    rw [escaped] at pulled
    cases pulled
  | case2 l taken token l' here isEnd =>
    cases pullOf sound here with
    | last _ coming pulled ended => exact ⟨l', by rw [coming, List.reverse_cons], pulled, ended⟩
    | more inside =>
      rw [isEnd] at inside
      contradiction
  | case3 l taken token l' here goes ih =>
    cases pullOf sound here with
    | last isEnd => exact absurd isEnd goes
    | more _ coming recording pulled =>
      obtain ⟨l'', tokens, rest, ended⟩ := ih pulled.passed.sound
      refine ⟨l'', ?_, ?_, ended⟩
      · rw [tokens, coming, List.reverse_cons, List.append_assoc, List.singleton_append]
      · rw [recording, pulled.passed.ahead]
        exact pulledOn pulled rest

end Lexer

end WindowLex
