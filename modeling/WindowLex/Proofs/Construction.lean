import WindowLex.CommandLine.Outcome
import WindowLex.Proofs.BrokenFiles

/-! How making a lexer fails. A configuration that cannot be used and input that cannot be opened are the
documented ways. Three more get through: a path that holds a null character, one with a surrogate that stands for
no byte, and windows wider than the most that can be asked for. -/
namespace WindowLex
open CommandLine

def Lexer.made : Except OpenIssue (Except Fault Unit × Lexer) → Except Failure Lexer
  | .error issue => .error (.ofOpenIssue issue)
  | .ok (.error fault, _) => .error (.fault fault)
  | .ok (.ok (), l) => .ok l

def CommandLine.Failure.documented : Failure → Bool
  | .diagnostic d => d.family = .config || d.family = .cannotOpen
  | .badParameter _ | .fault _ => false

def Entry.obstacle? : Entry → Option Obstacle
  | .file _ => none
  | .folder => some .isFolder
  | .missing obstacle => some obstacle

inductive Refused (files : Files) (c : Config) : GivenPath → Failure → Prop where
  | badPath {path : String} (null : '\x00' ∈ path.toList) :
      Refused files c (.name path) (.fault ⟨.badValue, "embedded null byte"⟩)
  | unwritable {path : CodePoints} (lone : path.points.any CodePoint.isLone = true) :
      Refused files c (.unwritable path lone) (.fault ⟨.badValue, path.unwritable CodePoint.isLone⟩)
  | unopened {path : String} {obstacle : Obstacle} (plain : '\x00' ∉ path.toList)
      (absent : (files path).obstacle? = some obstacle) :
      Refused files c (.name path) (.diagnostic (.cannotOpen path obstacle.reason))
  | notText {path : String} {bytes : List UInt8} (plain : '\x00' ∉ path.toList) (file : files path = .file bytes)
      (unnamed : Encoding.named? c.encoding = none) :
      Refused files c (.name path) (.diagnostic (.config ("unknown encoding " ++ Text.quoted c.encoding)))
  | tooWide {path : String} {bytes : List UInt8} {e : Encoding} (plain : '\x00' ∉ path.toList)
      (file : files path = .file bytes) (named : Encoding.named? c.encoding = some e)
      (wide : sizeLimit < c.width.size) : Refused files c (.name path) (.fault .sizeLimit)

def GivenPath.Unusable : GivenPath → Prop
  | .name path => '\x00' ∈ path.toList
  | .unwritable _ _ => True

section
variable {c : Config} {s : Source} {files : Files} {path : String} {bytes : List UInt8} {e : Encoding}
  {layer : TextLayer}

theorem startMade (fresh : c.width.size ≤ sizeLimit → s.Fresh) (more : s.exhausted = false)
    (opened : s.closed = false) (limit : s.stream.limit = some sizeLimit) (width : s.width = c.width)
    (failure : Failure) : Lexer.made (.ok (Lexer.start s c)) = .error failure ↔
      sizeLimit < c.width.size ∧ failure = .fault .sizeLimit := by
  by_cases fits : c.width.size ≤ sizeLimit
  · obtain ⟨l, _, started, _⟩ := scanFresh (fresh fits) c
    rw [started, Lexer.made]
    exact iff_of_false nofun fun refused => Nat.not_lt.mpr fits refused.1
  · have wide := Nat.lt_of_not_le fits
    have large : s.stream.tooLarge s.width.size = true := by simp [Stream.tooLarge, limit, width, wide]
    obtain ⟨t, primes⟩ := Source.primeTooLarge more opened large
    rw [Lexer.start, primes, Lexer.made]
    simp [wide, eq_comm]

theorem textMade (c : Config) (text : List Char) (name : String) (failure : Failure) :
    Lexer.made (.ok (Lexer.ofText text c name)) = .error failure ↔
      sizeLimit < c.width.size ∧ failure = .fault .sizeLimit :=
  startMade (fun fits => Source.freshStream (Stream.textGives fits text) _) rfl rfl rfl rfl failure

theorem fileMade (file : files path = .file bytes) (plain : '\x00' ∉ path.toList)
    (named : Encoding.named? c.encoding = some e) (failure : Failure) :
    Lexer.made (Lexer.ofFile files path c layer) = .error failure ↔
      sizeLimit < c.width.size ∧ failure = .fault .sizeLimit := by
  rw [fileOpened file plain named layer]
  refine startMade (fun fits => ?_) rfl rfl rfl rfl failure
  exact Source.freshNoted (Source.freshStream (Stream.fileGives e layer bytes fits) path) (.opened path)

theorem badPathMade (null : '\x00' ∈ path.toList) (c : Config) :
    Lexer.made (Lexer.ofFile files path c layer) = .error (.fault ⟨.badValue, "embedded null byte"⟩) := by
  have known := Encoding.lookupNoNull c.encodingKnown
  have null : path.toList.contains '\x00' = true := List.contains_iff_mem.mpr null
  simp only [Lexer.ofFile, Lexer.ofPath, Source.ofPath, Source.ofFile, known, null]
  rfl

theorem unopenedMade {obstacle : Obstacle} (plain : '\x00' ∉ path.toList)
    (absent : (files path).obstacle? = some obstacle) (c : Config) :
    Lexer.made (Lexer.ofFile files path c layer) = .error (.diagnostic (.cannotOpen path obstacle.reason)) := by
  have known := Encoding.lookupNoNull c.encodingKnown
  have plain : path.toList.contains '\x00' = false := by simpa using plain
  cases entry : files path with
  | file bytes => simp [entry, Entry.obstacle?] at absent
  | folder | missing =>
    obtain rfl := by simpa only [entry, Entry.obstacle?, Option.some.injEq] using absent
    simp only [Lexer.ofFile, Lexer.ofPath, Source.ofPath, Source.ofFile, known, plain, entry]
    rfl

theorem notTextMade (plain : '\x00' ∉ path.toList) (file : files path = .file bytes)
    (unnamed : Encoding.named? c.encoding = none) :
    Lexer.made (Lexer.ofFile files path c layer) =
      .error (.diagnostic (.config ("unknown encoding " ++ Text.quoted c.encoding))) := by
  have known := Encoding.lookupNoNull c.encodingKnown
  have plain : path.toList.contains '\x00' = false := by simpa using plain
  simp only [Lexer.ofFile, Lexer.ofPath, Source.ofPath, Source.ofFile, known, plain, file, unnamed]
  rfl

theorem unwritableMade {path : CodePoints} (lone : path.points.any CodePoint.isLone = true) (c : Config) :
    Lexer.made (Lexer.ofPath files (.unwritable path lone) c layer) =
      .error (.fault ⟨.badValue, path.unwritable CodePoint.isLone⟩) := by
  have known := Encoding.lookupNoNull c.encodingKnown
  simp only [Lexer.ofPath, Source.ofPath, known]
  rfl

theorem nameRefusedOnly (files : Files) (path : String) (c : Config) (layer : TextLayer) {failure : Failure}
    (made : Lexer.made (Lexer.ofFile files path c layer) = .error failure) : Refused files c (.name path) failure := by
  by_cases null : '\x00' ∈ path.toList
  · obtain rfl := Except.error.inj ((badPathMade null c).symm.trans made)
    exact .badPath null
  cases entry : files path with
  | file bytes =>
    cases named : Encoding.named? c.encoding with
    | none =>
      obtain rfl := Except.error.inj ((notTextMade null entry named).symm.trans made)
      exact .notText null entry named
    | some e =>
      obtain ⟨wide, rfl⟩ := (fileMade entry null named failure).mp made
      exact .tooWide null entry named wide
  | folder =>
    have absent : (files path).obstacle? = some .isFolder := by rw [entry, Entry.obstacle?]
    obtain rfl := Except.error.inj ((unopenedMade null absent c).symm.trans made)
    exact .unopened null absent
  | missing obstacle =>
    have absent : (files path).obstacle? = some obstacle := by rw [entry, Entry.obstacle?]
    obtain rfl := Except.error.inj ((unopenedMade null absent c).symm.trans made)
    exact .unopened null absent

theorem pathRefused (files : Files) (path : GivenPath) (c : Config) (layer : TextLayer) (failure : Failure) :
    Lexer.made (Lexer.ofPath files path c layer) = .error failure ↔ Refused files c path failure := by
  constructor
  · intro made
    cases path with
    | name path => exact nameRefusedOnly files path c layer made
    | unwritable path lone =>
      obtain rfl := Except.error.inj ((unwritableMade lone c).symm.trans made)
      exact .unwritable lone
  · intro refused
    cases refused with
    | badPath null => exact badPathMade null c
    | unwritable lone => exact unwritableMade lone c
    | unopened plain absent => exact unopenedMade plain absent c
    | notText plain file unnamed => exact notTextMade plain file unnamed
    | tooWide plain file named wide => exact (fileMade file plain named _).mpr ⟨wide, rfl⟩

theorem undocumentedRefused (files : Files) (path : GivenPath) (c : Config) :
    (∃ failure, Refused files c path failure ∧ failure.documented = false) ↔
      path.Unusable ∨ sizeLimit < c.width.size ∧
        ∃ name bytes e, path = .name name ∧ files name = .file bytes ∧ Encoding.named? c.encoding = some e := by
  constructor
  · rintro ⟨failure, refused, undocumented⟩
    cases refused with
    | badPath null => exact .inl null
    | unwritable lone => exact .inl trivial
    | unopened | notText => contradiction
    | tooWide plain file named wide => exact .inr ⟨wide, _, _, _, rfl, file, named⟩
  · cases path with
    | unwritable path lone => exact fun _ => ⟨_, .unwritable lone, rfl⟩
    | name path =>
      intro refused
      by_cases null : '\x00' ∈ path.toList
      · exact ⟨_, .badPath null, rfl⟩
      · obtain ⟨wide, _, bytes, e, same, file, named⟩ := refused.resolve_left null
        cases same
        exact ⟨_, .tooWide null file named wide, rfl⟩

end

/- The configuration has been accepted. That a text cannot be asked for so much, and that a path can hold what no path
may hold, is found by neither of the two checks. -/
theorem constructionEscapes (c : Config) (layer : TextLayer) :
    (∀ text name failure, Lexer.made (.ok (Lexer.ofText text c name)) = .error failure ↔
      sizeLimit < c.width.size ∧ failure = .fault .sizeLimit) ∧
    ∀ files path,
      (∀ failure, Lexer.made (Lexer.ofPath files path c layer) = .error failure ↔ Refused files c path failure) ∧
      ((∃ failure, Lexer.made (Lexer.ofPath files path c layer) = .error failure ∧ failure.documented = false) ↔
        path.Unusable ∨ sizeLimit < c.width.size ∧
          ∃ name bytes e, path = .name name ∧ files name = .file bytes ∧ Encoding.named? c.encoding = some e) := by
  refine ⟨textMade c, fun files path => ⟨pathRefused files path c layer, ?_⟩⟩
  simp only [pathRefused]
  exact undocumentedRefused files path c

theorem enormousWidth : 0 < Nat.pow 2 63 := by decide

def Config.enormous : Config := { standard with width := .count (Nat.pow 2 63) enormousWidth }

theorem enormousEscapes :
    Config.standard.withWidth (.integer (Nat.pow 2 63 : Nat)) = .ok .enormous ∧
    Lexer.made (.ok (Lexer.ofText ['a', 'b'] .enormous)) = .error (.fault .sizeLimit) ∧
    Lexer.made (Lexer.ofFile (fun _ => .file [0x61, 0x62]) "f" .enormous) = .error (.fault .sizeLimit) ∧
    Lexer.made (Lexer.ofFile (fun _ => .missing .notFound) "f\x00" .standard) =
      .error (.fault ⟨.badValue, "embedded null byte"⟩) ∧
    Lexer.made (Lexer.ofPath (fun _ => .missing .notFound) (.unwritable ⟨[.char 'f', .surrogate 0]⟩ rfl) .standard) =
      .error (.fault ⟨.badValue,
        "'utf-8' codec can't encode character '\\ud800' in position 1: surrogates not allowed"⟩) ∧
    Failure.documented (.fault .sizeLimit) = false ∧
    ∀ message, Failure.documented (.fault ⟨.badValue, message⟩) = false := by
  have wide : sizeLimit < Config.enormous.width.size := by decide
  refine ⟨?_, (textMade _ _ _ _).mpr ⟨wide, rfl⟩, ?_, badPathMade (by decide) _, unwritableMade _ _, rfl, fun _ => rfl⟩
  · rfl
  · exact (fileMade (c := .enormous) rfl (by decide) narrowNamed _).mpr ⟨wide, rfl⟩

end WindowLex
