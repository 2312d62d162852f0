import WindowLex.Proofs.Computations

/-! What a source notes of its reads. Each filling of a window tells how many characters it has brought, also when a
read has cut it short; what is lost with a fault that escapes is not told. Nothing else is noted on the way. -/
namespace WindowLex

namespace Event

def loads : Event → Nat
  | loaded count _ => count
  | _ => 0

end Event

def loadedIn : List Event → Nat
  | [] => 0
  | event :: rest => event.loads + loadedIn rest

theorem loadedOn (first second : List Event) : loadedIn (first ++ second) = loadedIn first + loadedIn second := by
  induction first with
  | nil => exact (Nat.zero_add _).symm
  | cons event rest ih => rw [List.cons_append, loadedIn, loadedIn, ih, Nat.add_assoc]

namespace Source

/- What is noted on the way from one source to another, on which so much is heard from the stream. A failure that is
kept was a failed read. -/
structure Notes (s : Source) (heard : List Exchange) (events : List Event) (t : Source) : Prop where
  asks : s.stream.Heard heard t.stream
  journal : t.journal.toList = s.journal.toList ++ events
  loaded : (∀ e ∈ heard, e.Contained) → loadedIn events = (givenByAll heard).length
  name : t.name = s.name
  failure : t.readError = s.readError ∨ ∃ reason, t.readError = some (.readFailed reason)

structure Logs (s : Source) (heard : List Exchange) (events : List Event) (t : Source) : Prop
    extends Notes s heard events t where
  channel : ∀ e ∈ events, e.channel = "streamlex.source"

variable {s t u : Source} {first second heard : List Exchange} {before after events : List Event}

theorem notesOn (left : s.Notes first before t) (right : t.Notes second after u) :
    s.Notes (first ++ second) (before ++ after) u where
  asks := Stream.heardOn left.asks right.asks
  journal := by rw [right.journal, left.journal, List.append_assoc]
  loaded contained := by
    obtain ⟨early, late⟩ := List.forall_mem_append.mp contained
    rw [loadedOn, left.loaded early, right.loaded late, givenOn, List.length_append]
  name := right.name.trans left.name
  failure := by
    rcases right.failure with same | ⟨reason, failed⟩
    · exact same ▸ left.failure
    · exact .inr ⟨reason, failed⟩

theorem notesNothing (s : Source) : s.Notes [] [] s := ⟨.nothing, (List.append_nil _).symm, fun _ => rfl, rfl, .inl rfl⟩

theorem notesNoted (notes : s.Notes heard events t) (event : Event) (nothing : event.loads = 0) :
    s.Notes heard (events ++ [event]) (t.note event) where
  asks := notes.asks
  journal := by rw [note, Array.toList_push, notes.journal, List.append_assoc]
  loaded contained := by
    have none : loadedIn [event] = 0 := by simp [loadedIn, nothing]
    rw [loadedOn, none, notes.loaded contained, Nat.add_zero]
  name := notes.name
  failure := notes.failure

theorem logsNothing (s : Source) : s.Logs [] [] s := ⟨notesNothing s, nofun⟩

theorem logsOn (left : s.Logs first before t) (right : t.Logs second after u) :
    s.Logs (first ++ second) (before ++ after) u :=
  ⟨notesOn left.toNotes right.toNotes, List.forall_mem_append.mpr ⟨left.channel, right.channel⟩⟩

theorem gatheredJournal (s : Source) (stream : Stream) (cut : Option Fault) (count : Nat) :
    (s.gathered stream cut count).journal.toList = s.journal.toList ++
      ((cut.map fun fault => Event.readFailed s.name fault.message).toList ++ [.loaded count s.name]) := by
  cases cut <;> simp [gathered, cutBy, loaded, note]

theorem gatheredLogs {stream : Stream} {count : Nat} (cut : Option Fault) (asks : s.stream.Heard heard stream)
    (came : count = (givenByAll heard).length) : ∃ events, s.Logs heard events (s.gathered stream cut count) := by
  refine ⟨_, ⟨(s.gatheredStream stream cut count).1.symm ▸ asks, s.gatheredJournal stream cut count, fun _ => ?_,
    (s.gatheredKept stream cut count).name, ?_⟩, ?_⟩
  · cases cut <;> simp [loadedIn, Event.loads, came]
  · rw [gatheredError]
    cases cut with
    | none => exact .inl rfl
    | some fault => exact .inr ⟨_, rfl⟩
  · cases cut <;> simp [Event.channel]

-- What came for a window is lost when a fault escapes. Such a read is none of those that end the input.
theorem fillLogs (s : Source) : ∃ heard events, s.Logs heard events s.fill.2 := by
  unfold fill
  split
  · exact ⟨[], [], logsNothing s⟩
  · rcases gathers : s.stream.gather s.width.size [] with ⟨fault | ⟨text, cut⟩, stream⟩
    all_goals obtain ⟨heard, asks, _, escape, came⟩ := Stream.gatherObtained gathers
    · refine ⟨heard, [], ⟨asks, (List.append_nil _).symm, fun contained => ?_, rfl, .inl rfl⟩, nofun⟩
      exact absurd (escapeContained escape contained) nofun
    · obtain ⟨whole, _⟩ := came text cut rfl
      obtain ⟨events, logs⟩ := gatheredLogs cut asks (congrArg List.length whole)
      exact ⟨heard, events, logs⟩

theorem filledLogs {answer : Except Fault (Array Char)} (filled : s.fill = (answer, t)) :
    ∃ heard events, s.Logs heard events t := by
  have logs := fillLogs s
  rwa [filled] at logs

-- The windows and the place of the cursor do not matter here, so that what a turn changes of them is left alone.
theorem advanceLogs (s : Source) : ∃ heard events, s.Logs heard events s.advance.2 := by
  cases here : s.current with
  | none =>
    rw [advanceStays here]
    exact ⟨[], [], logsNothing s⟩
  | some c =>
    rcases advanced : s.advance with ⟨answer, t⟩
    cases advanceStepped here advanced with
    | within more => exact ⟨[], [], { logsNothing s with }⟩
    | turned last full filled | fell last full filled =>
      obtain ⟨heard, events, logs⟩ := filledLogs filled
      exact ⟨heard, events, { logs with }⟩

theorem logsComposes : Composes fun s _ t => ∃ heard events, s.Logs heard events t where
  stay s := ⟨[], [], logsNothing s⟩
  advance := advanceLogs
  on := by
    rintro s t u f ⟨_, _, left⟩ ⟨_, _, right⟩
    exact ⟨_, _, logsOn left right⟩

theorem primedLogs (primed : s.prime = (.ok (), t)) : ∃ heard events, s.Logs heard events t := by
  obtain ⟨u, v, filled, filledToo, rest⟩ := primeFilled primed
  obtain ⟨_, _, first⟩ := filledLogs filled
  obtain ⟨_, _, second⟩ := filledLogs filledToo
  rw [rest]
  exact ⟨_, _, { logsOn first { second with } with }⟩

end Source

end WindowLex
