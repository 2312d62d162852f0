import WindowLex.Proofs.Recording

/-! Sessions with one lexer. A caller may pull tokens one by one, begin scans, leave them and take them up
again, and meanwhile look at the diagnostics, clear them and change how many are kept. However the pulls are
made, the tokens come in the one order, and the end of the input is reported once. -/
namespace WindowLex
open Lexical Lexeme

inductive Action where
  | pull
  | locate
  | exhaust
  | upTo (n : Nat)
  /-- Begins a scan that has pulled nothing yet. -/
  | beginScan
  | resumeScan (number : Nat)
  | report
  | clear
  | keep (limit : Int)
  deriving DecidableEq, Repr

def Action.adjust : Action → Collector → Collector
  | .clear, k => k.clear
  | .keep limit, k => { k with limit }
  | _, k => k

structure Session where
  lexer : Lexer
  scans : List Bool := []
  deriving DecidableEq, Repr

def others (problems : List Diagnostic) : List Diagnostic := problems.filter (!·.isUnterminated)

namespace Session

def goesOn : Except Fault Token → Bool
  | .ok token => !token.isEnd
  | .error _ => false

/-- The tokens that an action gives out. A scan that has given out the end of the input, or from which a
fault has escaped, gives out nothing more. -/
def act (s : Session) (a : Action) : Except Fault (List Token) × Session :=
  match a with
  | .pull | .locate => (s.lexer.next.1.map ([·]), { s with lexer := s.lexer.next.2 })
  | .exhaust => (s.lexer.tokenize.1, { s with lexer := s.lexer.tokenize.2 })
  | .upTo n => ((s.lexer.take n).1, { s with lexer := (s.lexer.take n).2 })
  | .beginScan => (.ok [], { s with scans := s.scans ++ [true] })
  | .resumeScan number =>
    if s.scans[number]? = some true then
      (s.lexer.next.1.map ([·]), {
        lexer := s.lexer.next.2
        scans := if goesOn s.lexer.next.1 then s.scans else s.scans.set number false })
    else (.ok [], s)
  | .report | .clear | .keep _ =>
    (.ok [], { s with lexer := { s.lexer with diagnostics := a.adjust s.lexer.diagnostics } })

def play (s : Session) : List Action → Except Fault (List (List Token)) × Session
  | [] => (.ok [], s)
  | a :: rest =>
    match s.act a with
    | (.error fault, s) => (.error fault, s)
    | (.ok tokens, s) =>
      match s.play rest with
      | (.error fault, s) => (.error fault, s)
      | (.ok more, s) => (.ok (tokens :: more), s)

end Session

namespace Lexer

theorem nextCounted {l l' : Lexer} {t : Token} (pulled : l.next = (.ok t, l')) :
    l'.tokenCount = l.tokenCount + 1 := by
  unfold next at pulled
  split at pulled
  · cases pulled
  · split at pulled
    · cases pulled
      simp only [reachEnd]
      split <;> rfl
    · split at pulled
      · cases pulled
      · cases pulled
        simp only [recordCut]
        split <;> rfl

structure Hands (l : Lexer) (t : Token) (handed : List Diagnostic) (l' : Lexer) : Prop where
  coming : l.upcoming = t :: if t.isEnd then [] else l'.upcoming
  again : t.isEnd = true → l'.upcoming = [t]
  sound : l'.source.Sound
  ending : l'.source.ending = l.source.ending
  ended : l'.ended = (l.ended || t.isEnd)
  diagnostics : l'.diagnostics = l.diagnostics.addAll handed
  failure : others handed = if t.isEnd && !l.ended then others l.source.ending.toList else []

theorem cutsOthers (name : String) (placed : List Placed) : others (cuts name placed) = [] := by
  rw [others, List.filter_eq_nil_iff]
  intro d member
  obtain ⟨t, _, rfl⟩ := List.mem_map.mp member
  simp [Diagnostic.isUnterminated, Diagnostic.family]

theorem nextHands {l : Lexer} (sound : l.source.Sound) :
    ∃ t handed l', l.next = (.ok t, l') ∧ l.Hands t handed l' := by
  cases left : l.source.ahead.dropWhile isGap with
  | nil =>
    obtain ⟨l', pulled, gone, ended⟩ := nextEnds sound left
    have nothing : l'.source.ahead = [] := Source.passedAhead gone.passed (List.append_nil _).symm
    refine ⟨_, _, l', pulled, ?_, fun _ => ?_, gone.passed.sound, gone.passed.ending, ?_,
      gone.diagnostics, ?_⟩
    · simp [upcoming, allFromBlank left, Token.isEnd]
    · rw [upcoming, nothing, allFromBlank rfl, gone.passed.position, gone.passed.name]
      rfl
    · simp [ended, Token.isEnd]
    · cases l.ended <;> rfl
  | cons first rest =>
    obtain ⟨l', pulled, taken, ended⟩ := nextTakes sound left rfl
    have inside : (Placed.token l.source.name ⟨(split l.config first rest).1,
        l.source.position.after (l.source.ahead.takeWhile isGap)⟩).isEnd = false :=
      decide_eq_false (cutKind (splitCut l.config first rest))
    refine ⟨_, _, l', pulled, ?_, fun isEnd => ?_, taken.passed.sound, taken.passed.ending, ?_,
      taken.diagnostics, ?_⟩
    · cases pullOf sound pulled with
      | last isEnd =>
        rw [inside] at isEnd
        contradiction
      | more _ coming => rw [coming, inside, if_neg Bool.false_ne_true]
    · rw [inside] at isEnd
      contradiction
    · rw [ended, inside, Bool.or_false]
    · rw [cutsOthers, inside, Bool.false_and, if_neg Bool.false_ne_true]

inductive Pulls : Lexer → List Token → Lexer → Prop where
  | none (l) : Pulls l [] l
  | more {l m n t tokens} (pulled : l.next = (.ok t, m)) (rest : Pulls m tokens n) :
      Pulls l (t :: tokens) n

theorem pullsOne {l : Lexer} (sound : l.source.Sound) :
    ∃ t l', l.next = (.ok t, l') ∧ l.Pulls [t] l' := by
  obtain ⟨t, _, l', pulled, _⟩ := nextHands sound
  exact ⟨t, l', pulled, .more pulled (.none l')⟩

theorem pullsTokens {l : Lexer} (sound : l.source.Sound) (taken : List Token) :
    ∃ tokens l', l.tokensFrom taken = (.ok (taken.reverse ++ tokens), l') ∧ l.Pulls tokens l' := by
  fun_induction tokensFrom l taken with
  | case1 l taken fault l' escaped =>
    obtain ⟨t, _, _, pulled, _⟩ := nextHands sound
    cases escaped.symm.trans pulled
  | case2 l taken token l' here isEnd =>
    exact ⟨[token], l', by rw [List.reverse_cons], .more here (.none l')⟩
  | case3 l taken token l' here goes ih =>
    obtain ⟨t, _, _, pulled, hands⟩ := nextHands sound
    cases here.symm.trans pulled
    obtain ⟨tokens, l'', rest, pulls⟩ := ih hands.sound
    exact ⟨token :: tokens, l'', by simp [rest], .more here pulls⟩

theorem pullsTake {l : Lexer} (sound : l.source.Sound) (taken : List Token) (more : Nat) :
    ∃ tokens l', l.takeFrom taken more = (.ok (taken.reverse ++ tokens), l') ∧ l.Pulls tokens l' := by
  induction more generalizing l taken with
  | zero =>
    obtain ⟨t, l', pulled, pulls⟩ := pullsOne sound
    exact ⟨[t], l', by simp [takeFrom, pulled], pulls⟩
  | succ more ih =>
    obtain ⟨t, _, l', pulled, hands⟩ := nextHands sound
    by_cases isEnd : t.isEnd
    · exact ⟨[t], l', by simp [takeFrom, pulled, isEnd], .more pulled (.none l')⟩
    · obtain ⟨tokens, l'', rest, pulls⟩ := ih hands.sound (t :: taken)
      exact ⟨t :: tokens, l'', by simp [takeFrom, pulled, isEnd, rest], .more pulled pulls⟩

/- Where a lexer stands that is to give out these tokens and the end of the input after them, and has given
out some of them by now. -/
structure Standing (tokens : List Token) (ending : Token) (failure : Option Diagnostic) (l : Lexer)
    (given : List Token) : Prop where
  sound : l.source.Sound
  failure : l.source.ending = failure
  count : l.tokenCount = given.length
  ended : l.ended = true ↔ ending ∈ given
  whole : ∃ again, given ++ l.upcoming = tokens ++ List.replicate (again + 1) ending

section
variable {tokens given more : List Token} {ending t : Token} {failure : Option Diagnostic} {l l' : Lexer}

theorem standingPrefix (standing : Standing tokens ending failure l given) :
    given <+: tokens ++ List.replicate given.length ending := by
  obtain ⟨again, whole⟩ := standing.whole
  have short : given <+: tokens ++ List.replicate (given.length + (again + 1)) ending := by
    rw [Nat.add_comm, List.replicate_add, ← List.append_assoc, ← whole, List.append_assoc]
    exact List.prefix_append ..
  refine List.prefix_of_prefix_length_le short ?_ (by simp)
  rw [List.replicate_add, ← List.append_assoc]
  exact List.prefix_append ..

theorem standingNext {handed : List Diagnostic} (isEnd : ending.isEnd = true)
    (standing : Standing tokens ending failure l given) (pulled : l.next = (.ok t, l'))
    (hands : l.Hands t handed l') :
    Standing tokens ending failure l' (given ++ [t]) ∧
      others handed = if ending ∈ [t] ∧ ending ∉ given then others failure.toList else [] := by
  obtain ⟨again, whole⟩ := standing.whole
  have count : l'.tokenCount = (given ++ [t]).length := by
    rw [nextCounted pulled, standing.count, List.length_append]
    rfl
  have told := hands.failure
  have ended := hands.ended
  rw [hands.coming] at whole
  rw [standing.failure] at told
  cases last : t.isEnd with
  | true =>
    rw [last, if_pos rfl, List.replicate_succ', ← List.append_assoc] at whole
    obtain ⟨before, same⟩ := List.append_inj' whole rfl
    obtain rfl : t = ending := List.singleton_inj.mp same
    rw [last, Bool.or_true] at ended
    refine ⟨⟨hands.sound, hands.ending.trans standing.failure, count, by simp [ended], again + 1, ?_⟩, ?_⟩
    · rw [hands.again last, before, List.replicate_succ', List.replicate_succ']
      simp
    · rw [told, last, Bool.true_and]
      simp [← standing.ended]
  | false =>
    rw [last, if_neg Bool.false_ne_true, ← List.singleton_append, ← List.append_assoc] at whole
    have other : ending ≠ t := by
      rintro rfl
      rw [isEnd] at last
      contradiction
    rw [last, Bool.or_false] at ended
    refine ⟨⟨hands.sound, hands.ending.trans standing.failure, count, ?_, again, whole⟩, ?_⟩
    · rw [ended, standing.ended]
      simp [other]
    · rw [told, last]
      simp [other]

theorem standingPulls (isEnd : ending.isEnd = true) (pulls : l.Pulls more l')
    (standing : Standing tokens ending failure l given) :
    Standing tokens ending failure l' (given ++ more) ∧ ∃ handed,
      l'.diagnostics = l.diagnostics.addAll handed ∧
      others handed = if ending ∈ more ∧ ending ∉ given then others failure.toList else [] := by
  induction pulls generalizing given with
  | none l => exact ⟨by simpa using standing, [], rfl, by simp [others]⟩
  | @more l m n t tokens pulled rest ih =>
    obtain ⟨_, first, _, same, hands⟩ := nextHands standing.sound
    cases pulled.symm.trans same
    obtain ⟨next, once⟩ := standingNext isEnd standing pulled hands
    obtain ⟨later, second, recorded, again⟩ := ih next
    refine ⟨by simpa using later, first ++ second, ?_, ?_⟩
    · rw [recorded, hands.diagnostics, Collector.addAllAppend]
    · rw [others, List.filter_append, ← others, ← others, once, again]
      by_cases now : ending = t <;> by_cases before : ending ∈ given <;> simp [now, before]

theorem standingAdjusted (standing : Standing tokens ending failure l given) (k : Collector) :
    Standing tokens ending failure { l with diagnostics := k } given :=
  ⟨standing.sound, standing.failure, standing.count, standing.ended, standing.whole⟩

end

end Lexer

namespace Session

variable {tokens given : List Token} {ending : Token} {failure : Option Diagnostic} {s : Session}

/- Whatever is done comes down to a change of the diagnostics and some pulls. -/
theorem actPulls (sound : s.lexer.source.Sound) (a : Action) :
    ∃ more s', s.act a = (.ok more, s') ∧
      { s.lexer with diagnostics := a.adjust s.lexer.diagnostics }.Pulls more s'.lexer := by
  obtain ⟨t, l, pulled, one⟩ := Lexer.pullsOne sound
  cases a with
  | pull => exact ⟨[t], { s with lexer := l }, by rw [act, pulled]; rfl, one⟩
  | locate => exact ⟨[t], { s with lexer := l }, by rw [act, pulled]; rfl, one⟩
  | exhaust =>
    obtain ⟨more, l, all, pulls⟩ := Lexer.pullsTokens sound []
    exact ⟨more, { s with lexer := l }, by rw [act, Lexer.tokenize, all]; rfl, pulls⟩
  | upTo n =>
    obtain ⟨more, l, some, pulls⟩ := Lexer.pullsTake sound [] (n - 1)
    exact ⟨more, { s with lexer := l }, by rw [act, Lexer.take, some]; rfl, pulls⟩
  | resumeScan number =>
    by_cases live : s.scans[number]? = some true
    · refine ⟨[t], ⟨l, if goesOn (.ok t) then s.scans else s.scans.set number false⟩, ?_, one⟩
      rw [act, if_pos live, pulled]
      rfl
    · exact ⟨[], s, by rw [act, if_neg live], .none _⟩
  | _ => exact ⟨[], _, rfl, .none _⟩

theorem actStanding (isEnd : ending.isEnd = true) (a : Action)
    (standing : s.lexer.Standing tokens ending failure given) :
    ∃ more s' handed, s.act a = (.ok more, s') ∧
      s'.lexer.Standing tokens ending failure (given ++ more) ∧
      s'.lexer.diagnostics = (a.adjust s.lexer.diagnostics).addAll handed ∧
      others handed = if ending ∈ more ∧ ending ∉ given then others failure.toList else [] := by
  obtain ⟨more, s', acted, pulls⟩ := actPulls standing.sound a
  obtain ⟨later, handed, recorded, once⟩ :=
    Lexer.standingPulls isEnd pulls (Lexer.standingAdjusted standing _)
  exact ⟨more, s', handed, acted, later, recorded, once⟩

/- How the diagnostics come about in a session, before which these tokens were given out. Each action changes
them in its own way and hands them what its pulls have met with. The failure of the input is handed over when
the end of the input is given out for the first time, and never else. -/
inductive Accounts (ending : Token) (failure : List Diagnostic) :
    List Token → Session → List Action → List (List Token) → Session → Prop where
  | done {before s} : Accounts ending failure before s [] [] s
  | act {before s a more t handed actions given s'} (acted : s.act a = (.ok more, t))
      (recorded : t.lexer.diagnostics = (a.adjust s.lexer.diagnostics).addAll handed)
      (once : others handed = if ending ∈ more ∧ ending ∉ before then failure else [])
      (rest : Accounts ending failure (before ++ more) t actions given s') :
      Accounts ending failure before s (a :: actions) (more :: given) s'

theorem playStanding (isEnd : ending.isEnd = true) (actions : List Action)
    (standing : s.lexer.Standing tokens ending failure given) :
    ∃ more s', s.play actions = (.ok more, s') ∧
      s'.lexer.Standing tokens ending failure (given ++ more.flatten) ∧
      Accounts ending (others failure.toList) given s actions more s' := by
  induction actions generalizing s given with
  | nil => exact ⟨[], s, rfl, by simpa using standing, .done⟩
  | cons a rest ih =>
    obtain ⟨first, t, handed, acted, next, recorded, once⟩ := actStanding isEnd a standing
    obtain ⟨more, s', played, later, accounts⟩ := ih next
    refine ⟨first :: more, s', ?_, ?_, .act acted recorded once accounts⟩
    · rw [play, acted]
      simp only [played]
    · rwa [List.flatten_cons, ← List.append_assoc]

end Session

theorem startedLexer {s : Source} {c : Config} {l : Lexer} {primed : Except Fault Unit}
    (started : Lexer.start s c = (primed, l)) :
    l.tokenCount = 0 ∧ l.ended = false := by
  cases started
  exact ⟨rfl, rfl⟩

theorem startedStanding {stream : Stream} {c : Config} {text : List Char} (gives : stream.Gives c.width text)
    (name : String) :
    ∃ l tokens ending l', Lexer.start (.ofStream stream c.width name) c = (.ok (), l) ∧
      l.tokenize = (.ok (tokens ++ [ending]), l') ∧ (∀ t ∈ tokens, t.isEnd = false) ∧ ending.isEnd = true ∧
      l.Standing tokens ending
        ((stream.failure c.width.size).map (Source.ofStream stream c.width name).cutBefore) [] := by
  obtain ⟨l, l', started, scanned, _, primed, _, _⟩ := scanFresh (Source.freshStream gives name) c
  obtain ⟨none, running⟩ := startedLexer started
  obtain ⟨_, same, _⟩ := Lexer.tokensFromPulled primed.sound []
  have coming := Except.ok.inj (Prod.mk.inj (same.symm.trans scanned)).1
  refine ⟨l, _, _, l', started, scanned, tilesInside (allTiles c {} _) name, rfl, primed.sound, primed.ending,
     none, by simp [running], 0, coming⟩

theorem pullsInAnyOrder {stream : Stream} {c : Config} {text : List Char} (gives : stream.Gives c.width text)
    (name : String) :
    ∃ l tokens ending l', Lexer.start (.ofStream stream c.width name) c = (.ok (), l) ∧
      l.tokenize = (.ok (tokens ++ [ending]), l') ∧ (∀ t ∈ tokens, t.isEnd = false) ∧ ending.isEnd = true ∧
      ∀ actions, ∃ given s, Session.play { lexer := l } actions = (.ok given, s) ∧
        given.flatten <+: tokens ++ List.replicate given.flatten.length ending ∧
        s.lexer.tokenCount = given.flatten.length ∧
        Session.Accounts ending ((stream.failure c.width.size).map fun fault =>
          .readFailed (name ++ ": " ++ fault.message)).toList [] { lexer := l } actions given s := by
  obtain ⟨l, tokens, ending, l', started, scanned, inside, isEnd, standing⟩ := startedStanding gives name
  refine ⟨l, tokens, ending, l', started, scanned, inside, isEnd, fun actions => ?_⟩
  obtain ⟨given, s, played, later, accounts⟩ :=
    Session.playStanding (s := { lexer := l }) isEnd actions standing
  have failure : others ((stream.failure c.width.size).map
      (Source.ofStream stream c.width name).cutBefore).toList = ((stream.failure c.width.size).map
        fun fault => .readFailed (name ++ ": " ++ fault.message)).toList := by
    cases stream.failure c.width.size <;> rfl
  rw [List.nil_append] at later
  rw [failure] at accounts
  exact ⟨given, s, played, Lexer.standingPrefix later, later.count, accounts⟩

def revisits : List Action := [.beginScan, .resumeScan 0, .keep 0, .upTo 2, .clear, .exhaust, .keep 9, .pull,
  .resumeScan 0, .resumeScan 0]

theorem brokenSession :
    brokenStream.Gives Config.narrow.width ['x', '>', '=', '/', '"', 'a'] ∧
    ∃ l tokens given s, Lexer.start (.ofStream brokenStream Config.narrow.width "f") .narrow = (.ok (), l) ∧
      Session.play { lexer := l } revisits = (.ok given, s) ∧
      given.map (·.map Token.lexeme) =
        [[], ["x"], [], [">=", "/"], [], ["a", "EOF"], [], ["EOF"], ["EOF"], []] ∧
      given.flatten <+: tokens ++ List.replicate 7 ⟨.endOfInput, "EOF", ⟨1, 7⟩, "f"⟩ ∧
      s.lexer.tokenCount = 7 ∧
      Session.Accounts ⟨.endOfInput, "EOF", ⟨1, 7⟩, "f"⟩ [.readFailed "f: gone"] [] { lexer := l } revisits
        given s ∧
      s.lexer.diagnostics = { stored := #[], dropped := 2, limit := 9 } := by
  have gives : brokenStream.Gives Config.narrow.width ['x', '>', '=', '/', '"', 'a'] := brokenStreamGives
  have failed : brokenStream.failure Config.narrow.width.size = some ⟨.system, "gone"⟩ :=
    (Stream.deliveredWritten (by simp [Stream.Sizeless, brokenStream]) (by simp [brokenStream])
      (by decide) rfl).2
  obtain ⟨l, tokens, ending, l', started, scanned, _, _, session⟩ := pullsInAnyOrder gives "f"
  obtain ⟨given, s, played, first, count, accounts⟩ := session revisits
  obtain rfl : (Lexer.start (.ofStream brokenStream Config.narrow.width "f") .narrow).2 = l := by rw [started]
  have last : ending = ⟨.endOfInput, "EOF", ⟨1, 7⟩, "f"⟩ := by
    have all := congrArg (fun r => r.1.toOption.bind List.getLast?) scanned
    simp only [Except.toOption, Option.bind_some, List.getLast?_concat] at all
    rw [← Option.some.injEq, ← all]
    decide +kernel
  have lexemes : given.map (·.map Token.lexeme) =
      [[], ["x"], [], [">=", "/"], [], ["a", "EOF"], [], ["EOF"], ["EOF"], []] := by
    have all := congrArg (fun r => r.1.toOption.map (·.map (·.map Token.lexeme))) played
    simp only [Except.toOption, Option.map_some] at all
    rw [← Option.some.injEq, ← all]
    decide +kernel
  have length : given.flatten.length = 7 := by
    have all := congrArg (fun lists => (lists.map List.length).sum) lexemes
    simpa [List.length_flatten, List.map_map, Function.comp_def] using all
  have collected : s.lexer.diagnostics = { stored := #[], dropped := 2, limit := 9 } := by
    have all := congrArg (fun r => r.2.lexer.diagnostics) played
    rw [← show _ = s.lexer.diagnostics from all]
    decide +kernel
  rw [last, failed] at accounts
  rw [last, length] at first
  exact ⟨gives, _, tokens, given, s, started, played, lexemes, first, count.trans length, accounts, collected⟩

end WindowLex
