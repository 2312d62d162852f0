import WindowLex.Proofs.BrokenFiles
import WindowLex.Proofs.Utf8

/-! Files that hold a text. Opening such a file and scanning it gives what scanning the text gives, with its
line ends unified, and nothing of the reading shows. -/
namespace WindowLex
open Lexical Lexeme

def Location.within (name : String) (l : Location) : Location := { l with sourceName := name }

def Token.within (name : String) (t : Token) : Token := { t with sourceName := name }

def Detail.within (name : String) (d : Detail) : Detail := { d with location := d.location.map (.within name) }

def Diagnostic.within (name : String) : Diagnostic → Diagnostic
  | general message => .general message
  | config message => .config message
  | summary report => .summary report
  | located detail => .located (detail.within name)
  | source detail => .source (detail.within name)
  | cannotOpen path reason => .cannotOpen path reason
  | readFailed reason place => .readFailed reason (place.map (.within name))
  | lexical detail => .lexical (detail.within name)
  | unterminatedString place => .unterminatedString (place.map (.within name))

theorem tokensWithin (c : Config) (name other : String) (text : List Char) :
    (Lexeme.tokens c name text).map (Token.within other) = Lexeme.tokens c other text := by
  rw [Lexeme.tokens, List.map_append, List.map_map]
  rfl

theorem diagnosticsWithin (c : Config) (name other : String) (text : List Char) :
    (Lexeme.diagnostics c name text).map (Diagnostic.within other) = Lexeme.diagnostics c other text := by
  rw [Lexeme.diagnostics, List.map_map]
  rfl

structure Lexer.Covers (c : Config) (name : String) (text : List Char) (l l' : Lexer) : Prop where
  tokens : l.tokenize = (.ok (Lexeme.tokens c name text), l')
  recorded : l'.diagnostics.stored.toList = Lexeme.diagnostics c name text
  position : l'.source.position = Position.after {} text
  whole : l'.source.readError = none

theorem scanCovers {s : Source} (fresh : s.Fresh) (unbroken : s.ending = none) (c : Config) :
    ∃ l l', Lexer.start s c = (.ok (), l) ∧ Lexer.Covers c s.name s.ahead l l' := by
  obtain ⟨l, l', started, tokens, _, primed, passed, recorded⟩ := scanFresh fresh c
  have ahead : l.source.ahead = s.ahead ++ [] := by rw [List.append_nil, primed.ahead, List.nil_append]
  have done := Source.exhaustedDone passed.sound (Source.passedAhead passed ahead)
  refine ⟨l, l', started, tokens, ?_, ?_, ?_⟩
  · rw [recorded, unbroken, Option.toList_none, List.append_nil]
  · rw [passed.position, primed.position, fresh.position]
    rfl
  · rw [← Source.endingDone done, passed.ending, primed.ending, unbroken]

-- What was noted before, such as that a file was opened, does not matter.
theorem textCovers {c : Config} (fits : c.width.size ≤ sizeLimit) (text : List Char) (name : String)
    (journal : Journal) : ∃ l l',
      Lexer.start { Source.ofStream (.ofText text) c.width name with journal } c = (.ok (), l) ∧
        Lexer.Covers c name text l l' := by
  obtain ⟨delivered, unbroken⟩ := Stream.textDelivered text c.width.sizePositive fits
  have gives := Stream.textGives fits text
  have fresh : Source.Fresh { Source.ofStream (.ofText text) c.width name with journal } :=
    ⟨⟨gives.honest, gives.allowed, rfl, fun _ => rfl⟩, rfl, rfl, rfl, rfl⟩
  have ahead : Source.ahead { Source.ofStream (.ofText text) c.width name with journal } = text := delivered
  have ending : Source.ending { Source.ofStream (.ofText text) c.width name with journal } = none :=
    (Source.endingMore rfl).trans (congrArg (Option.map _) unbroken)
  obtain ⟨l, l', started, covers⟩ := scanCovers fresh ending c
  exact ⟨l, l', started, ahead ▸ covers⟩

theorem filesReadLikeText {files : Files} {path : String} {text text' : List Char} {c : Config}
    (file : files path = .file (Text.utf8 text)) (plain : '\x00' ∉ path.toList)
    (named : Encoding.named? c.encoding = some .utf8) (fits : c.width.size ≤ sizeLimit)
    (unified : Text.Unified text text') (name : String) (layer : TextLayer) :
    ∃ l l' m m' tokens, Lexer.ofFile files path c layer = .ok (.ok (), l) ∧
      Lexer.ofText text' c name = (.ok (), m) ∧
      l.tokenize = (.ok (tokens.map (Token.within path)), l') ∧ m.tokenize = (.ok tokens, m') ∧
      l'.diagnostics.stored.toList = m'.diagnostics.stored.toList.map (Diagnostic.within path) ∧
      l'.source.position = m'.source.position ∧ l'.source.readError = none := by
  have stream : Stream.ofBytes .utf8 (Text.utf8 text) c.width.size layer = .ofText text' := by
    rw [Stream.fileText .utf8 layer _ (Encoding.availableText layer text c.width.size)]
    exact congrArg Stream.ofText (unifiedOnly.mp unified)
  obtain ⟨l, l', opened, covers⟩ := textCovers fits text' path #[.opened path]
  obtain ⟨m, m', started, others⟩ := textCovers fits text' (sourceName (some name) none) #[]
  refine ⟨l, l', m, m', _, ?_, started, ?_, others.tokens, ?_, ?_, covers.whole⟩
  · rw [fileOpened file plain named, stream]
    exact congrArg Except.ok opened
  · rw [tokensWithin, covers.tokens]
  · rw [others.recorded, diagnosticsWithin, covers.recorded]
  · rw [covers.position, others.position]

def mixedText : List Char := ['é', '€', '\r', '\n', '😀', '\r', '"', 'b']

def mixedFile : Files := fun _ => .file
  [0xC3, 0xA9, 0xE2, 0x82, 0xAC, 0x0D, 0x0A, 0xF0, 0x9F, 0x98, 0x80, 0x0D, 0x22, 0x62]

theorem mixedUnified : Text.Unified mixedText ['é', '€', '\n', '😀', '\n', '"', 'b'] :=
  unifiedOnly.mpr rfl

theorem mixedFileRead :
    mixedFile "f" = .file (Text.utf8 mixedText) ∧ '\x00' ∉ "f".toList ∧
    Encoding.named? Config.narrow.encoding = some .utf8 ∧ Config.narrow.width.size ≤ sizeLimit ∧
    Text.Unified mixedText ['é', '€', '\n', '😀', '\n', '"', 'b'] ∧
    ∃ l l', Lexer.ofFile mixedFile "f" .narrow = .ok (.ok (), l) ∧
      l.tokenize = (.ok [⟨.unknown, "é", ⟨1, 1⟩, "f"⟩, ⟨.unknown, "€", ⟨1, 2⟩, "f"⟩,
        ⟨.unknown, "😀", ⟨2, 1⟩, "f"⟩, ⟨.stringLiteral, "b", ⟨3, 1⟩, "f"⟩,
        ⟨.endOfInput, "EOF", ⟨3, 3⟩, "f"⟩], l') ∧
      l'.source.readError = none := by
  have file : mixedFile "f" = .file (Text.utf8 mixedText) := by rw [utf8Characters]; rfl
  have plain : '\x00' ∉ "f".toList := by decide
  have fits : Config.narrow.width.size ≤ sizeLimit := by decide
  obtain ⟨l, l', m, m', tokens, opened, started, run, others, _, _, whole⟩ :=
    filesReadLikeText file plain narrowNamed fits mixedUnified anonymous .standard
  refine ⟨file, plain, narrowNamed, fits, mixedUnified, l, l', opened, run.trans ?_, whole⟩
  have plainly := runText fits ['é', '€', '\n', '😀', '\n', '"', 'b'] anonymous
  rw [started, Lexer.run, others, Prod.mk.injEq, Except.ok.injEq] at plainly
  rw [plainly.1, tokensWithin]
  exact congrArg (fun tokens => (Except.ok tokens, l')) (by cbv)

end WindowLex
