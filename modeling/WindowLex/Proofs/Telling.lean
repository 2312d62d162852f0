import WindowLex.Proofs.Collecting
import WindowLex.Proofs.Ending
import WindowLex.Proofs.Loading
import WindowLex.Proofs.Sessions

/-! What the log tells of a scan. Pulls follow each other, also behind faults that have escaped, and between them the
diagnostics may be changed in any way. The log names every token that was given out, every string literal that was
left open, and the first end of the input. -/
namespace WindowLex

inductive Call where
  | pull
  | revise (change : Collector.Change)
  deriving DecidableEq, Repr

def Call.adjust (k : Collector) : Call → Collector
  | pull => k
  | revise change => change.apply k

def told (level : Level) (log : List Event) : List String :=
  (log.filter fun e => e.channel = "streamlex.lexer" ∧ e.level = level).map Event.message

theorem toldOn (level : Level) (first second : List Event) :
    told level (first ++ second) = told level first ++ told level second := by
  rw [told, List.filter_append, List.map_append, ← told, ← told]

theorem toldNothing {log : List Event} (source : ∀ e ∈ log, e.channel = "streamlex.source") (level : Level) :
    told level log = [] := by
  have none : log.filter (fun e => e.channel = "streamlex.lexer" ∧ e.level = level) = [] := by
    rw [List.filter_eq_nil_iff]
    intro e member
    simp [source e member]
  rw [told, none, List.map_nil]

namespace Lexer

def answer (l : Lexer) : Call → List Token × Lexer
  | .pull => (l.next.1.toOption.toList, l.next.2)
  | .revise change => ([], { l with diagnostics := change.apply l.diagnostics })

/- The tokens that are given out. A pull from which a fault has escaped gives none, and the calls go on. -/
def serve (l : Lexer) : List Call → List Token × Lexer
  | [] => ([], l)
  | call :: rest => ((l.answer call).1 ++ ((l.answer call).2.serve rest).1, ((l.answer call).2.serve rest).2)

def Adds (l : Lexer) (call : Call) (added : List Diagnostic) : Prop :=
  ∀ k, ({ l with diagnostics := k }.answer call).2.diagnostics = (call.adjust k).addAll added

inductive AddsAll : Lexer → List Call → List Diagnostic → Prop where
  | none {l : Lexer} : AddsAll l [] []
  | more {l : Lexer} {call : Call} {calls : List Call} {first second : List Diagnostic} (now : l.Adds call first)
      (rest : (l.answer call).2.AddsAll calls second) : AddsAll l (call :: calls) (first ++ second)

inductive Tells (l : Lexer) : Except Fault Token × Lexer → List Diagnostic → List Event → Prop where
  | fell {fault : Fault} {s : Source} : Tells l (.error fault, { l with source := s }) [] []
  | whole {t : Token} {n : Lexer} (inside : t.isEnd = false) (same : n.ended = l.ended) :
      Tells l (.ok t, n) [] [.token t]
  | cutOff {t : Token} {n : Lexer} (inside : t.isEnd = false) (same : n.ended = l.ended) :
      Tells l (.ok t, n) [.unterminatedString (some t.location)] [.unterminated t.location, .token t]
  | first {t : Token} {n : Lexer} (isEnd : t.isEnd = true) (running : l.ended = false) (ended : n.ended = true) :
      Tells l (.ok t, n) n.source.readError.toList
        [.finished n.source.name n.tokenCount n.diagnostics.count, .token t]
  | again {t : Token} {n : Lexer} (isEnd : t.isEnd = true) (past : l.ended = true) (ended : n.ended = true) :
      Tells l (.ok t, n) [] [.token t]

structure Tale (l : Lexer) (heard : List Exchange) (before own : List Event) (added : List Diagnostic) : Prop where
  notes : l.source.Notes heard (before ++ own) l.next.2.source
  source : ∀ e ∈ before, e.channel = "streamlex.source"
  adds : l.Adds .pull added
  tells : l.Tells l.next added own

variable {l : Lexer} {s u : Source} {fault : Fault} {text : List Char} {first : Char} {lexeme : Lexeme}
  {heard : List Exchange} {before : List Event}

theorem skipFell (skipped : l.source.takeWhile Lexical.isGap [] = (.error fault, s)) :
    l.next = (.error fault, { l with source := s }) := by
  simp only [next, skipped]

theorem scanFell (skipped : l.source.takeWhile Lexical.isGap [] = (.ok text, s)) (here : s.current = some first)
    (scanned : s.scan l.config first = (.error fault, u)) : l.next = (.error fault, { l with source := u }) := by
  simp only [next, skipped, here, scanned]

theorem scanTook (skipped : l.source.takeWhile Lexical.isGap [] = (.ok text, s)) (here : s.current = some first)
    (scanned : s.scan l.config first = (.ok lexeme, u)) :
    l.next = (.ok ⟨lexeme.kind, String.ofList lexeme.text, s.position, u.name⟩,
      (({ l with source := u }.recordCut lexeme s.position).give lexeme.kind (String.ofList lexeme.text) s.position).2) := by
  simp only [next, skipped, here, scanned, give, recordCut]
  split <;> rfl

theorem endMet (skipped : l.source.takeWhile Lexical.isGap [] = (.ok text, s)) (done : s.current = none) :
    l.next = (.ok ⟨.endOfInput, Token.endLexeme, s.position, s.name⟩,
      ({ l with source := s }.reachEnd.give .endOfInput Token.endLexeme s.position).2) := by
  simp only [next, skipped, done, give, reachEnd]
  split <;> rfl

/- What a pull answers does not depend on the diagnostics, and what it leaves is told for any of them. -/
theorem taleOf {a : Except Fault Token} {n : Collector → Lexer} {own : List Event} {added : List Diagnostic}
    (source : ∀ e ∈ before, e.channel = "streamlex.source")
    (answers : ∀ k, ({ l with diagnostics := k } : Lexer).next = (a, n k))
    (adds : ∀ k, (n k).diagnostics = k.addAll added)
    (notes : l.source.Notes heard (before ++ own) (n l.diagnostics).source)
    (tells : l.Tells (a, n l.diagnostics) added own) : l.Tale heard before own added := by
  have same : l.next = (a, n l.diagnostics) := answers l.diagnostics
  exact {
    notes := by rwa [same]
    source
    adds := fun k => by
      rw [answer, answers k]
      exact adds k
    tells := by rwa [same] }

theorem fellTale (logs : l.source.Logs heard before s)
    (fell : ∀ k, ({ l with diagnostics := k } : Lexer).next = (.error fault, { l with diagnostics := k, source := s })) :
    l.Tale heard before [] [] := by
  refine taleOf logs.channel fell (fun _ => rfl) ?_ .fell
  rw [List.append_nil]
  exact logs.toNotes

theorem endTale (logs : l.source.Logs heard before s)
    (skipped : l.source.takeWhile Lexical.isGap [] = (.ok text, s)) (done : s.current = none) :
    ∃ own added, l.Tale heard before own added := by
  let ending : Token := ⟨.endOfInput, Token.endLexeme, s.position, s.name⟩
  have met (k : Collector) := endMet (l := { l with diagnostics := k }) skipped done
  cases ended : l.ended with
  | true =>
    have again (k : Collector) : ({ l with diagnostics := k, source := s } : Lexer).reachEnd =
        { l with diagnostics := k, source := s } := if_pos ended
    simp only [again] at met
    exact ⟨_, [], taleOf logs.channel met (fun _ => rfl)
      (Source.notesNoted logs.toNotes (.token ending) rfl) (.again rfl ended ended)⟩
  | false =>
    have first (k : Collector) : ({ l with diagnostics := k, source := s } : Lexer).reachEnd =
        { l with
          ended := true
          diagnostics := k.addAll s.readError.toList
          source := s.note (.finished s.name (l.tokenCount + 1) (k.addAll s.readError.toList).count) } := by
      simp only [reachEnd, ended]
      cases s.readError <;> rfl
    simp only [first] at met
    have notes := Source.notesNoted (Source.notesNoted logs.toNotes (.finished s.name (l.tokenCount + 1)
      (l.diagnostics.addAll s.readError.toList).count) rfl) (.token ending) rfl
    rw [List.append_assoc] at notes
    exact ⟨_, s.readError.toList, taleOf logs.channel met (fun _ => rfl) notes (.first rfl ended rfl)⟩

theorem scannedInside {c : Config} (scanned : s.scan c first = (.ok lexeme, u)) : lexeme.kind ≠ .endOfInput := by
  unfold Source.scan at scanned
  split at scanned
  · obtain ⟨text, t, _, done⟩ := Source.andThenOk scanned
    cases done
    unfold Lexeme.wordKind
    split <;> simp
  split at scanned
  · obtain ⟨text, t, _, done⟩ := Source.andThenOk scanned
    cases done
    simp
  split at scanned
  · obtain ⟨_, t, _, rest⟩ := Source.andThenOk scanned
    obtain ⟨text, v, _, rest⟩ := Source.andThenOk rest
    split at rest
    · cases rest
      simp
    · obtain ⟨_, w, _, done⟩ := Source.andThenOk rest
      cases done
      simp
  split at scanned
  · obtain ⟨_, t, _, rest⟩ := Source.andThenOk scanned
    obtain ⟨_, v, _, rest⟩ := Source.andThenOk rest
    obtain ⟨text, w, _, done⟩ := Source.andThenOk rest
    cases done
    simp
  split at scanned
  · obtain ⟨_, t, _, rest⟩ := Source.andThenOk scanned
    split at rest
    · obtain ⟨_, v, _, done⟩ := Source.andThenOk rest
      cases done
      simp
    · cases rest
      simp
  · obtain ⟨_, t, _, done⟩ := Source.andThenOk scanned
    cases done
    unfold Lexical.punctuation
    split <;> simp

theorem tookTale (logs : l.source.Logs heard before u)
    (skipped : l.source.takeWhile Lexical.isGap [] = (.ok text, s)) (here : s.current = some first)
    (scanned : s.scan l.config first = (.ok lexeme, u)) : ∃ own added, l.Tale heard before own added := by
  let t : Token := ⟨lexeme.kind, String.ofList lexeme.text, s.position, u.name⟩
  have took (k : Collector) := scanTook (l := { l with diagnostics := k }) skipped here scanned
  have inside : t.isEnd = false := decide_eq_false (scannedInside scanned)
  cases short : lexeme.cutOff with
  | true =>
    have cut (k : Collector) : ({ l with diagnostics := k, source := u } : Lexer).recordCut lexeme s.position =
        { l with
          diagnostics := k.addAll [.unterminatedString (some t.location)]
          source := u.note (.unterminated t.location) } := if_pos short
    simp only [cut] at took
    have notes := Source.notesNoted (Source.notesNoted logs.toNotes (.unterminated t.location) rfl) (.token t) rfl
    rw [List.append_assoc] at notes
    exact ⟨_, _, taleOf logs.channel took (fun _ => rfl) notes (.cutOff inside rfl)⟩
  | false =>
    have whole (k : Collector) : ({ l with diagnostics := k, source := u } : Lexer).recordCut lexeme s.position =
        { l with diagnostics := k, source := u } := if_neg (by simp [short])
    simp only [whole] at took
    exact ⟨_, [], taleOf logs.channel took (fun _ => rfl) (Source.notesNoted logs.toNotes (.token t) rfl)
      (.whole inside rfl)⟩

theorem nextTale (l : Lexer) : ∃ heard before own added, l.Tale heard before own added := by
  obtain ⟨heard, before, gap⟩ := Source.takeWhileComposes Source.logsComposes l.source Lexical.isGap []
  rcases skipped : l.source.takeWhile Lexical.isGap [] with ⟨fault | text, s⟩
  all_goals rw [skipped] at gap
  · exact ⟨heard, before, _, _, fellTale gap fun k => skipFell skipped⟩
  · cases here : s.current with
    | none =>
      obtain ⟨own, added, tale⟩ := endTale gap skipped here
      exact ⟨heard, before, own, added, tale⟩
    | some first =>
      obtain ⟨later, after, lexeme⟩ := Source.scanComposes Source.logsComposes s l.config first
      have logs := Source.logsOn gap lexeme
      rcases scanned : s.scan l.config first with ⟨fault | lexeme, u⟩
      all_goals rw [scanned] at logs
      · exact ⟨_, _, _, _, fellTale logs fun k => scanFell skipped here scanned⟩
      · obtain ⟨own, added, tale⟩ := tookTale logs skipped here scanned
        exact ⟨_, _, own, added, tale⟩

def Warned (added : List Diagnostic) (log : List Event) : Prop :=
  ∃ places : List Location, added.filter Diagnostic.isUnterminated =
      places.map (fun place => .unterminatedString (some place)) ∧
    told .warning log = places.map fun place => "Unterminated string literal at " ++ place.text

theorem warnedOn {left right : List Diagnostic} {early late : List Event} (first : Warned left early)
    (second : Warned right late) : Warned (left ++ right) (early ++ late) := by
  obtain ⟨before, added, warned⟩ := first
  obtain ⟨behind, addedToo, warnedToo⟩ := second
  exact ⟨before ++ behind, by rw [List.filter_append, added, addedToo, List.map_append],
    by rw [toldOn, warned, warnedToo, List.map_append]⟩

structure Chronicle (l : Lexer) (tokens : List Token) (added : List Diagnostic) (log : List Event) (n : Lexer) :
    Prop where
  notes : ∃ heard, l.source.Notes heard log n.source
  named : told .debug log = tokens.map Token.display
  count : n.tokenCount = l.tokenCount + tokens.length
  warned : Warned added log

/- A failure of the input is no string literal that was left open. -/
def Honest (l : Lexer) : Prop := ∀ d ∈ l.source.readError, d.isUnterminated = false

theorem honestLater {n : Lexer} {log : List Event} (honest : l.Honest) (notes : l.source.Notes heard log n.source) :
    n.Honest := by
  intro d kept
  rcases notes.failure with same | ⟨reason, failed⟩
  · exact honest d (same ▸ kept)
  · rw [failed, Option.mem_some] at kept
    exact kept ▸ rfl

theorem chronicleOn {m n : Lexer} {first second : List Token} {left right : List Diagnostic} {early late : List Event}
    (start : l.Chronicle first left early m) (rest : m.Chronicle second right late n) :
    l.Chronicle (first ++ second) (left ++ right) (early ++ late) n where
  notes := by
    obtain ⟨_, before⟩ := start.notes
    obtain ⟨_, behind⟩ := rest.notes
    exact ⟨_, Source.notesOn before behind⟩
  named := by rw [toldOn, start.named, rest.named, List.map_append]
  count := by rw [rest.count, start.count, List.length_append, Nat.add_assoc]
  warned := warnedOn start.warned rest.warned

theorem tellsTokens {r : Except Fault Token × Lexer} {added : List Diagnostic} {own : List Event}
    (tells : l.Tells r added own) : told .debug own = r.1.toOption.toList.map Token.display := by
  cases tells <;> rfl

theorem tellsWarned {r : Except Fault Token × Lexer} {added : List Diagnostic} {own : List Event}
    (tells : l.Tells r added own) (honest : r.2.Honest) : Warned added own := by
  cases tells with
  | fell => exact ⟨[], rfl, rfl⟩
  | whole inside same => exact ⟨[], rfl, rfl⟩
  | @cutOff t n inside same => exact ⟨[t.location], rfl, rfl⟩
  | @first t n isEnd running ended =>
    refine ⟨[], List.filter_eq_nil_iff.mpr fun d failure => ?_, rfl⟩
    simp [honest d (Option.mem_toList.mp failure)]
  | again isEnd past ended => exact ⟨[], rfl, rfl⟩

theorem pulledCount (l : Lexer) : l.next.2.tokenCount = l.tokenCount + l.next.1.toOption.toList.length := by
  rcases pulled : l.next with ⟨fault | t, n⟩
  · have same := nextFellSource (l := l) (congrArg Prod.fst pulled)
    rw [pulled] at same
    rw [show n = _ from same]
    rfl
  · exact nextCounted pulled

theorem taleChronicle {own : List Event} {added : List Diagnostic} (honest : l.Honest)
    (tale : l.Tale heard before own added) :
    l.Chronicle l.next.1.toOption.toList added (before ++ own) l.next.2 where
  notes := ⟨heard, tale.notes⟩
  named := by rw [toldOn, toldNothing tale.source, tellsTokens tale.tells, List.nil_append]
  count := l.pulledCount
  warned := by
    obtain ⟨places, added, warned⟩ := tellsWarned tale.tells (honestLater honest tale.notes)
    exact ⟨places, added, by rw [toldOn, toldNothing tale.source, warned, List.nil_append]⟩

inductive Ends (l : Lexer) : Call → List Event → Prop where
  | quiet {call : Call} {log : List Event} (inside : ∀ t ∈ (l.answer call).1, t.isEnd = false)
      (same : (l.answer call).2.ended = l.ended) (untold : told .info log = []) : Ends l call log
  | first {t : Token} {n : Lexer} {early : List Event} (running : l.ended = false) (pulled : l.next = (.ok t, n))
      (isEnd : t.isEnd = true) (ended : n.ended = true) (untold : told .info early = []) :
      Ends l .pull (early ++ [.finished n.source.name n.tokenCount n.diagnostics.count, .token t])
  | again {call : Call} {log : List Event} (past : l.ended = true) (still : (l.answer call).2.ended = true)
      (untold : told .info log = []) : Ends l call log

theorem taleEnds {own : List Event} {added : List Diagnostic} (tale : l.Tale heard before own added) :
    l.Ends .pull (before ++ own) := by
  have silent (own : List Event) : told .info (before ++ own) = told .info own := by
    rw [toldOn, toldNothing tale.source, List.nil_append]
  have tells := tale.tells
  generalize pulled : l.next = r at tells
  cases tells with
  | fell => exact .quiet (by simp [answer, pulled, Except.toOption]) (by rw [answer, pulled]) (silent _)
  | whole inside same | cutOff inside same =>
    exact .quiet (by simpa [answer, pulled, Except.toOption]) (by rw [answer, pulled]; exact same) (silent _)
  | first isEnd running ended => exact .first running pulled isEnd ended (toldNothing tale.source _)
  | again isEnd past ended => exact .again past (by rw [answer, pulled]; exact ended) (silent _)

theorem answerTold (honest : l.Honest) (call : Call) : ∃ added log, l.Adds call added ∧
    l.Chronicle (l.answer call).1 added log (l.answer call).2 ∧ l.Ends call log := by
  cases call with
  | pull =>
    obtain ⟨heard, before, own, added, tale⟩ := l.nextTale
    exact ⟨added, _, tale.adds, taleChronicle honest tale, taleEnds tale⟩
  | revise change =>
    have notes : l.source.Notes [] [] l.source := Source.notesNothing l.source
    exact ⟨[], [], fun k => rfl, ⟨⟨[], notes⟩, rfl, rfl, [], rfl, rfl⟩, .quiet nofun rfl rfl⟩

inductive Concludes (l : Lexer) (calls : List Call) (log : List Event) : Prop where
  | running (inside : ∀ t ∈ (l.serve calls).1, t.isEnd = false) (untold : told .info log = [])
  | ended {before after : List Call} {t : Token} {n : Lexer} {early late : List Event}
      (split : calls = before ++ .pull :: after) (inside : ∀ t ∈ (l.serve before).1, t.isEnd = false)
      (pulled : (l.serve before).2.next = (.ok t, n)) (isEnd : t.isEnd = true)
      (record : log = early ++ .finished n.source.name n.tokenCount n.diagnostics.count :: .token t :: late)
      (once : told .info early = [] ∧ told .info late = [])

theorem concludesBehind {calls : List Call} {log : List Event} (concludes : l.Concludes calls log)
    (untold : told .info before = []) : l.Concludes calls (before ++ log) := by
  cases concludes with
  | running inside quiet => exact .running inside (by rw [toldOn, untold, quiet, List.nil_append])
  | ended split inside pulled isEnd record once =>
    refine .ended split inside pulled isEnd (by rw [record, ← List.append_assoc]) ⟨?_, once.2⟩
    rw [toldOn, untold, once.1, List.nil_append]

theorem concludesOn {call : Call} {calls : List Call} {now later : List Event} (running : l.ended = false)
    (ends : l.Ends call now)
    (rest : (l.answer call).2.ended = false → (l.answer call).2.Concludes calls later)
    (past : (l.answer call).2.ended = true → told .info later = []) :
    l.Concludes (call :: calls) (now ++ later) := by
  cases ends with
  | quiet inside same untold =>
    refine concludesBehind ?_ untold
    cases rest (same.trans running) with
    | running insideToo quiet => exact .running (List.forall_mem_append.mpr ⟨inside, insideToo⟩) quiet
    | @ended before after t n early late split insideToo pulled isEnd record once =>
      have longer : call :: calls = (call :: before) ++ .pull :: after := congrArg (call :: ·) split
      exact .ended longer (List.forall_mem_append.mpr ⟨inside, insideToo⟩) pulled isEnd record once
  | @first t n early _ pulled isEnd ended untold =>
    have now : (l.answer .pull).2.ended = true := by rw [answer, pulled]; exact ended
    have here : Call.pull :: calls = [] ++ .pull :: calls := rfl
    exact .ended here nofun pulled isEnd (List.append_assoc ..) ⟨untold, past now⟩
  | again already =>
    rw [running] at already
    contradiction

-- The induction is over the calls. The lexer itself carries whether the end of the input has been met: before that
-- the calls may still conclude, and behind it they tell nothing of it.
theorem serveTold (honest : l.Honest) (calls : List Call) : ∃ added log, l.AddsAll calls added ∧
    l.Chronicle (l.serve calls).1 added log (l.serve calls).2 ∧
    (l.ended = true → told .info log = []) ∧ (l.ended = false → l.Concludes calls log) := by
  induction calls generalizing l with
  | nil =>
    have notes : l.source.Notes [] [] l.source := Source.notesNothing l.source
    exact ⟨[], [], .none, ⟨⟨[], notes⟩, rfl, rfl, [], rfl, rfl⟩, fun _ => rfl, fun _ => .running nofun rfl⟩
  | cons call rest ih =>
    obtain ⟨first, now, adds, start, ends⟩ := answerTold honest call
    obtain ⟨_, notes⟩ := start.notes
    obtain ⟨second, later, addsToo, behind, silent, concludes⟩ := ih (honestLater honest notes)
    refine ⟨first ++ second, now ++ later, .more adds addsToo, chronicleOn start behind, fun past => ?_,
      fun running => concludesOn running ends concludes silent⟩
    cases ends with
    | quiet inside same untold => rw [toldOn, untold, silent (same.trans past), List.nil_append]
    | first running =>
      rw [past] at running
      contradiction
    | again _ still untold => rw [toldOn, untold, silent still, List.nil_append]

end Lexer

theorem logTellsScan {stream : Stream} {width : Width} {name : String} {c : Config} {l : Lexer}
    (started : Lexer.start (.ofStream stream width name) c = (.ok (), l)) (calls : List Call) :
    ∃ tokens s added heard, l.serve calls = (tokens, s) ∧ l.AddsAll calls added ∧
      stream.Heard heard s.source.stream ∧
      told .debug s.source.journal.toList = tokens.map Token.display ∧ s.tokenCount = tokens.length ∧
      l.Concludes calls s.source.journal.toList ∧ Lexer.Warned added s.source.journal.toList ∧
      ((∀ e ∈ heard, e.Contained) → loadedIn s.source.journal.toList = (givenByAll heard).length) := by
  obtain ⟨none, running⟩ := startedLexer started
  obtain ⟨primed, before, logs⟩ := Source.primedLogs (startedPrimed started)
  have silent (level : Level) : told level before = [] := toldNothing logs.channel level
  have honest : l.Honest := by
    intro d kept
    rcases logs.failure with same | ⟨reason, failed⟩
    · rw [same] at kept
      contradiction
    · rw [failed, Option.mem_some] at kept
      exact kept ▸ rfl
  obtain ⟨added, log, adds, ⟨⟨later, notes⟩, named, count, places, kept, warned⟩, _, concludes⟩ :=
    Lexer.serveTold honest calls
  have whole := Source.notesOn logs.toNotes notes
  have journal : (l.serve calls).2.source.journal.toList = before ++ log := whole.journal
  rw [none, Nat.zero_add] at count
  refine ⟨_, _, added, primed ++ later, rfl, adds, whole.asks, ?_, count, ?_, ⟨places, kept, ?_⟩, ?_⟩
  all_goals rw [journal]
  · rw [toldOn, silent, named, List.nil_append]
  · exact Lexer.concludesBehind (concludes running) (silent .info)
  · rw [toldOn, silent, warned, List.nil_append]
  · exact whole.loaded

def interruptedCalls : List Call :=
  [.pull, .pull, .pull, .pull, .revise (.keep 0), .revise .clear, .pull, .revise (.add (.general "late")), .pull]

theorem brokenLog : ∃ l tokens s added heard,
    Lexer.start (.ofStream brokenStream Config.narrow.width "f") .narrow = (.ok (), l) ∧
    l.serve interruptedCalls = (tokens, s) ∧ tokens.map Token.lexeme = ["x", ">=", "/", "a", "EOF", "EOF"] ∧
    told .debug s.source.journal.toList = tokens.map Token.display ∧ s.tokenCount = tokens.length ∧
    l.AddsAll interruptedCalls added ∧ Lexer.Warned added s.source.journal.toList ∧
    told .warning s.source.journal.toList = ["Unterminated string literal at f:1:5"] ∧
    l.Concludes interruptedCalls s.source.journal.toList ∧
    told .info s.source.journal.toList = ["Finished scanning f: 5 tokens, 1 diagnostics"] ∧
    brokenStream.Heard heard s.source.stream ∧ loadedIn s.source.journal.toList = 6 ∧
    (givenByAll heard).length = 6 := by
  have started : Lexer.start (.ofStream brokenStream Config.narrow.width "f") .narrow =
      (.ok (), (Lexer.start (.ofStream brokenStream Config.narrow.width "f") .narrow).2) :=
    Prod.ext (by decide +kernel) rfl
  obtain ⟨tokens, s, added, heard, served, adds, asks, named, count, concludes, warned, loaded⟩ :=
    logTellsScan started interruptedCalls
  have contained : ∀ e ∈ heard, e.Contained := by
    intro e member fault failed
    have scripted := Stream.heardFault asks (fun _ _ => rfl) e member fault failed
    exact (show ∀ fault ∈ Reply.faults brokenStream.script, fault.endsInput = true by decide) fault scripted
  have same : s = _ := (congrArg Prod.snd served).symm
  have lexemes : tokens.map Token.lexeme = ["x", ">=", "/", "a", "EOF", "EOF"] := by
    rw [show tokens = _ from (congrArg Prod.fst served).symm]
    decide +kernel
  have characters : loadedIn s.source.journal.toList = 6 := by
    rw [same]
    decide +kernel
  refine ⟨_, tokens, s, added, heard, started, served, lexemes, named, count, adds, warned, ?_, concludes, ?_, asks,
    characters, (loaded contained).symm.trans characters⟩
  all_goals
    rw [same]
    decide +kernel

end WindowLex
