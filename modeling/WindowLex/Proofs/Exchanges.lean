import WindowLex.Proofs.Requests

/-! What was asked of a stream and what it answered, request by request. The requests made for one window ask
each time for all that it still misses, and the first one that is given nothing is the last. A fault that
escapes ends them too. -/
namespace WindowLex

structure Exchange where
  size : Nat
  answer : Except Fault (List Char)

namespace Exchange

def given (e : Exchange) : List Char := e.answer.toOption.getD []

def Contained (e : Exchange) : Prop := ∀ fault, e.answer = .error fault → fault.endsInput = true

def Within (most : Nat) (e : Exchange) : Prop := 0 < e.size ∧ e.size ≤ most

end Exchange

def givenByAll (heard : List Exchange) : List Char := heard.flatMap Exchange.given

def faultOf {α : Type} : Except Fault α → Option Fault
  | .ok _ => none
  | .error fault => some fault

inductive Filling : Nat → List Exchange → Prop where
  | full : Filling 0 []
  | last {missing : Nat} {e : Exchange} (short : 0 < missing) (asked : e.size = missing) (none : e.given = []) :
      Filling missing [e]
  | more {missing : Nat} {e : Exchange} {later : List Exchange} (short : 0 < missing) (asked : e.size = missing)
      (some : e.given ≠ []) (rest : Filling (missing - e.given.length) later) : Filling missing (e :: later)

inductive Escape : List Exchange → Option Fault → Prop where
  | none {heard : List Exchange} (contained : ∀ e ∈ heard, e.Contained) : Escape heard none
  | last {before : List Exchange} {size : Nat} {fault : Fault} (contained : ∀ e ∈ before, e.Contained)
      (escapes : fault.endsInput = false) : Escape (before ++ [⟨size, .error fault⟩]) (some fault)

variable {first second before after heard : List Exchange} {e : Exchange} {fault : Fault} {missing : Nat}

theorem givenOn (first second : List Exchange) :
    givenByAll (first ++ second) = givenByAll first ++ givenByAll second := List.flatMap_append

theorem containedGiven {text : List Char} {size : Nat} : (Exchange.mk size (.ok text)).Contained := nofun

theorem escapeOn {f : Option Fault} (contained : ∀ e ∈ first, e.Contained) (rest : Escape second f) :
    Escape (first ++ second) f := by
  cases rest with
  | none later => exact .none fun e member => (List.mem_append.mp member).elim (contained e) (later e)
  | @last before size fault later escapes =>
    rw [← List.append_assoc]
    exact .last (fun e member => (List.mem_append.mp member).elim (contained e) (later e)) escapes

theorem escapeNone (escape : Escape heard none) : ∀ e ∈ heard, e.Contained := by
  cases escape with
  | none contained => exact contained

theorem escapeContained {f : Option Fault} (escape : Escape heard f) (contained : ∀ e ∈ heard, e.Contained) :
    f = none := by
  cases escape with
  | none _ => rfl
  | last _ escapes =>
    have ends := contained _ (List.mem_append_right _ (List.mem_cons_self ..)) _ rfl
    rw [escapes] at ends
    contradiction

theorem escapeExact {f : Option Fault} (escape : Escape heard f) (fault : Fault) :
    f = some fault ↔ fault.endsInput = false ∧ ∃ e ∈ heard, e.answer = .error fault := by
  cases escape with
  | none contained =>
    refine ⟨nofun, fun ⟨escapes, e, member, failed⟩ => ?_⟩
    have ends := contained e member fault failed
    rw [escapes] at ends
    contradiction
  | @last before size fault' contained escapes =>
    constructor
    · intro same
      cases same
      exact ⟨escapes, _, List.mem_append_right _ (List.mem_cons_self ..), rfl⟩
    · rintro ⟨goes, e, member, failed⟩
      rcases List.mem_append.mp member with early | late
      · have ends := contained e early fault failed
        rw [goes] at ends
        contradiction
      · cases List.mem_singleton.mp late
        cases failed
        rfl

theorem fillingSizes (filling : Filling missing heard) : ∀ e ∈ heard, e.Within missing := by
  induction filling with
  | full => simp
  | last short asked none => simp [Exchange.Within, asked, short]
  | more short asked some rest ih =>
    refine List.forall_mem_cons.mpr ⟨by simp [Exchange.Within, asked, short], fun e member => ?_⟩
    obtain ⟨positive, within⟩ := ih e member
    exact ⟨positive, Nat.le_trans within (Nat.sub_le ..)⟩

theorem fillingAsked (filling : Filling missing heard) (split : heard = before ++ e :: after) :
    e.size = missing - (givenByAll before).length := by
  induction filling generalizing before with
  | full => simp at split
  | @last missing first short asked none =>
    obtain ⟨rfl, rfl⟩ : before = [] ∧ e = first := by
      cases before <;> simp_all
    exact asked
  | @more missing first later short asked some rest ih =>
    cases before with
    | nil =>
      cases split
      exact asked
    | cons b before =>
      cases split
      rw [ih rfl, givenByAll, givenByAll, List.flatMap_cons, List.length_append, Nat.sub_sub]

theorem fillingEnded (filling : Filling missing heard) (split : heard = before ++ e :: after)
    (none : e.given = []) : after = [] := by
  induction filling generalizing before with
  | full => simp at split
  | @last missing first short asked nothing =>
    cases before <;> simp_all
  | @more missing first later short asked some rest ih =>
    cases before with
    | nil =>
      cases split
      exact absurd none some
    | cons b before =>
      cases split
      exact ih rfl

theorem fillingFull (filling : Filling missing heard) (full : missing ≤ (givenByAll heard).length) :
    ∀ e ∈ heard, e.given ≠ [] := by
  intro e member none
  obtain ⟨before, after, rfl⟩ := List.append_of_mem member
  obtain rfl := fillingEnded filling rfl none
  have asked := fillingAsked filling rfl
  have positive := (fillingSizes filling e member).1
  have nothing : givenByAll [e] = [] := by simp [givenByAll, none]
  rw [givenOn, nothing, List.append_nil] at full
  omega

namespace Stream

inductive Heard : Stream → List Exchange → Stream → Prop where
  | nothing {s : Stream} : Heard s [] s
  | next {s t u : Stream} {size : Nat} {answer : Except Fault (List Char)} {later : List Exchange}
      (answered : s.read size = (answer, t)) (rest : Heard t later u) : Heard s (⟨size, answer⟩ :: later) u

variable {s t u : Stream}

theorem heardOn (left : s.Heard first t) (right : t.Heard second u) : s.Heard (first ++ second) u := by
  induction left with
  | nothing => exact right
  | next answered rest ih => exact .next answered (ih right)

theorem heardKept (asks : s.Heard heard t) : t.closings = s.closings ∧ t.limit = s.limit ∧
    t.asked.toList = s.asked.toList ++ heard.map Exchange.size := by
  induction asks with
  | nothing => simp
  | @next s t u size answer later answered rest ih =>
    obtain ⟨closings, limit, asked⟩ := ih
    have read : t.closings = s.closings := by
      unfold read at answered
      split at answered <;> cases answered <;> rfl
    obtain ⟨pushed, same, _⟩ := readKept answered
    exact ⟨closings.trans read, limit.trans same, by simp [asked, pushed]⟩

def Contained (s : Stream) (most : Nat) : Prop :=
  ∀ heard t, s.Heard heard t → (∀ e ∈ heard, e.Within most) → ∀ e ∈ heard, e.Contained

theorem containedLater {most : Nat} (contained : s.Contained most) (asks : s.Heard heard t)
    (within : ∀ e ∈ heard, e.Within most) : t.Contained most := by
  intro later u more withinToo e member
  refine contained (heard ++ later) u (heardOn asks more) ?_ e (List.mem_append_right _ member)
  exact List.forall_mem_append.mpr ⟨within, withinToo⟩

end Stream

def Reply.faults : List Reply → List Fault
  | [] => []
  | .failure fault :: rest | .guarded _ fault :: rest => fault :: faults rest
  | _ :: rest => faults rest

namespace Stream

variable {s t : Stream}

theorem answerFaults (portion : Option Nat) (size : Nat) (script : List Reply) :
    (∀ fault, (answer portion size script).1 = .error fault → fault ∈ Reply.faults script) ∧
      Reply.faults (answer portion size script).2 ⊆ Reply.faults script := by
  cases script with
  | nil => simp [answer]
  | cons reply rest =>
    cases reply with
    | piece text =>
      rw [answerPiece]
      dsimp only
      split <;> simp [Reply.faults]
    | whole text => simp [answer, Reply.faults]
    | nothing => simp [answer, Reply.faults]
    | failure fault => simp [answer, Reply.faults]
    | guarded text fault =>
      simp only [answer]
      split <;> simp [Reply.faults]

theorem heardFault (asks : s.Heard heard t) (allowed : ∀ e ∈ heard, s.tooLarge e.size = false) :
    ∀ e ∈ heard, ∀ fault, e.answer = .error fault → fault ∈ Reply.faults s.script := by
  induction asks with
  | nothing => simp
  | @next s t u size answer later answered rest ih =>
    have here : s.tooLarge size = false := allowed _ (List.mem_cons_self ..)
    have allowedLater := (List.forall_mem_cons.mp allowed).2
    obtain ⟨t', reads, script, _, same⟩ := readAllowed here
    cases answered.symm.trans reads
    obtain ⟨now, left⟩ := answerFaults s.portion size s.script
    refine List.forall_mem_cons.mpr ⟨now, fun e member fault failed => left ?_⟩
    rw [← script]
    exact ih (by rwa [same]) e member fault failed

theorem scriptContained {most : Nat} (allowed : s.tooLarge most = false)
    (ends : ∀ fault ∈ Reply.faults s.script, fault.endsInput = true) : s.Contained most := by
  intro heard t asks within e member fault failed
  have each : ∀ e ∈ heard, s.tooLarge e.size = false := fun e member => tooLargeMono allowed (within e member).2
  exact ends fault (heardFault asks each e member fault failed)

structure Obtained (s : Stream) (needed : Nat) (got : List Char) (answer : Except Fault (List Char × Option Fault))
    (t : Stream) (heard : List Exchange) : Prop where
  asks : s.Heard heard t
  filling : Filling needed heard
  escape : Escape heard (faultOf answer)
  came : ∀ text cut, answer = .ok (text, cut) →
    text = got ++ givenByAll heard ∧ (cut ≠ none → (givenByAll heard).length < needed)

theorem gatherObtained {needed : Nat} {got : List Char} {answer : Except Fault (List Char × Option Fault)}
    (gathered : s.gather needed got = (answer, t)) : ∃ heard, s.Obtained needed got answer t heard := by
  fun_induction gather s needed got with
  | case1 s got =>
    cases gathered
    exact ⟨[], .nothing, .full, .none (List.forall_mem_nil _), by simp [givenByAll]⟩
  | case2 s needed got short s' answered =>
    cases gathered
    refine ⟨[⟨needed, .ok []⟩], .next answered .nothing, .last (Nat.pos_of_ne_zero short) rfl rfl, .none ?_, ?_⟩
    · simp [containedGiven]
    · simp [givenByAll, Exchange.given, Except.toOption]
  | case3 s needed got short c piece s' answered ih =>
    obtain ⟨heard, asks, filling, escape, came⟩ := ih gathered
    refine ⟨⟨needed, .ok (c :: piece)⟩ :: heard, .next answered asks,
      .more (Nat.pos_of_ne_zero short) rfl (by simp [Exchange.given, Except.toOption]) filling, ?_,
      fun text cut done => ?_⟩
    · have first : ∀ e ∈ [Exchange.mk needed (.ok (c :: piece))], e.Contained := by simp [containedGiven]
      exact escapeOn first escape
    · obtain ⟨whole, cuts⟩ := came text cut done
      simp only [givenByAll, List.flatMap_cons, Exchange.given, Except.toOption, Option.getD_some,
        List.length_append, List.length_cons] at whole cuts ⊢
      exact ⟨by rw [whole, List.append_assoc], fun some => by have := cuts some; omega⟩
  | case4 s needed got short fault s' answered ends =>
    cases gathered
    refine ⟨[⟨needed, .error fault⟩], .next answered .nothing, .last (Nat.pos_of_ne_zero short) rfl rfl, .none ?_, ?_⟩
    · simpa [Exchange.Contained] using ends
    · rintro text cut same
      cases same
      exact ⟨by simp [givenByAll, Exchange.given, Except.toOption], fun _ => Nat.pos_of_ne_zero short⟩
  | case5 s needed got short fault s' answered goes =>
    cases gathered
    have escape : Escape ([] ++ [⟨needed, .error fault⟩]) (some fault) :=
      .last (List.forall_mem_nil _) (Bool.eq_false_iff.mpr goes)
    exact ⟨[⟨needed, .error fault⟩], .next answered .nothing, .last (Nat.pos_of_ne_zero short) rfl rfl, escape,
      by simp⟩

end Stream

end WindowLex
