import WindowLex.CommandLine
import WindowLex.Proofs.BrokenFiles
import WindowLex.Proofs.Collecting
import WindowLex.Proofs.Rows
import WindowLex.Proofs.Sessions
import WindowLex.Proofs.TextFiles

/-! What a listing shows of a file. Every token has its row unless it is a comment and comments are left out, all
tokens are counted, and diagnostics decide how a strict run ends. -/
namespace WindowLex
open CommandLine

namespace Lexer

theorem tokensCounted {l l' : Lexer} {taken tokens : List Token} (scanned : l.tokensFrom taken = (.ok tokens, l')) :
    l'.tokenCount + taken.length = l.tokenCount + tokens.length := by
  fun_induction tokensFrom l taken with
  | case1 l taken fault l' escaped => cases scanned
  | case2 l taken token m here isEnd =>
    cases scanned
    have counted := nextCounted here
    simp only [List.length_reverse, List.length_cons]
    omega
  | case3 l taken token m here goes ih =>
    have counted := nextCounted here
    have rest := ih scanned
    rw [List.length_cons] at rest
    omega

end Lexer

namespace CommandLine

/- The terminal leaves rows as they are: whatever could control it is written as an escape. -/
theorem rowShown (console : Console) (t : Token) : console.shown t.row = t.row :=
  console.plain _ fun member => absurd (Token.rowPrintable t _ member) (by decide +kernel)

theorem totalShown (console : Console) (n : Nat) :
    console.shown ("Total tokens: " ++ toString n) = "Total tokens: " ++ toString n := by
  refine console.plain _ fun member => ?_
  rw [String.toList_append, List.mem_append] at member
  rcases member with words | digits
  · exact absurd words (by decide)
  · rcases integerChars n Text.escapeChar digits with digit | dash <;> contradiction

theorem listingShown (i : Invocation) (console : Console) (tokens : List Token) (total : Nat) :
    (i.listing tokens total).map console.shown = i.listing tokens total := by
  have rows : ∀ shown : List Token, shown.map (console.shown ∘ Token.row) = shown.map Token.row := fun shown =>
    List.map_congr_left fun t _ => rowShown console t
  rw [Invocation.listing, List.map_append, List.map_map, List.map_singleton, totalShown, rows]

structure Invocation.Sets (i : Invocation) (base config : Config) : Prop where
  width : config.width.size = (i.width.map Int.toNat).getD base.width.size
  keywords : ∀ word, word ∈ config.keywords ↔ word ∈ if i.keywords = [] then base.keywords else i.keywords
  operators : config.operators = base.operators
  prefixes : config.prefixes = base.prefixes
  encoding : config.encoding = base.encoding

structure Outcome.Lists (o : Outcome) (i : Invocation) (console : Console) (tokens : List Token)
    (diagnostics : Collector) (journal : List Event) : Prop where
  output : o.output = ((tokens.filter fun t => !(i.skipComments && t.kind = .comment)).map Token.row)
    ++ ["Total tokens: " ++ toString tokens.length]
  errors : o.errors = recordLines i.verbose journal ++
    if diagnostics.count = 0 then [] else [console.shown diagnostics.report]
  exitCode : o.exitCode = if i.strict ∧ diagnostics.count ≠ 0 then .diagnostics else .success

section
variable {i : Invocation} {base config : Config}

theorem sizedSet (wide : ∀ width ∈ i.width, 1 ≤ width) (base : Config) :
    ∃ c, i.sized base = .ok c ∧ c.width.size = (i.width.map Int.toNat).getD base.width.size ∧
      c.keywords = base.keywords ∧ c.operators = base.operators ∧ c.prefixes = base.prefixes ∧
      c.encoding = base.encoding := by
  unfold Invocation.sized
  cases asked : i.width with
  | none => exact ⟨base, rfl, rfl, rfl, rfl, rfl, rfl⟩
  | some width =>
    have positive : 0 < width := wide width asked
    refine ⟨{ base with width := .count width.toNat (Width.toNatPositive positive) }, ?_, rfl, rfl, rfl, rfl, rfl⟩
    simp [Config.withWidth, Config.checkWidth, Width.ofOffered?, positive, bind, Except.bind, pure, Except.pure]

theorem wordedSet (words : "" ∉ i.keywords) (c : Config) :
    ∃ d, i.worded c = .ok d ∧
      (∀ word, word ∈ d.keywords ↔ word ∈ if i.keywords = [] then c.keywords else i.keywords) ∧
      d.operators = c.operators ∧ d.prefixes = c.prefixes ∧ d.width = c.width ∧ d.encoding = c.encoding := by
  unfold Invocation.worded
  split
  · exact ⟨c, rfl, fun word => Iff.rfl, rfl, rfl, rfl, rfl⟩
  · refine ⟨{ c with
      keywords := Ascending.ofList i.keywords
      keywordsNonempty := mt Ascending.memOfList.mp words }, ?_, fun word => Ascending.memOfList, rfl, rfl, rfl, rfl⟩
    simp [Config.withKeywords, Config.checkWords, words, bind, Except.bind, pure, Except.pure]

theorem optionsSet (wide : ∀ width ∈ i.width, 1 ≤ width) (words : "" ∉ i.keywords) (base : Config) :
    ∃ config, i.config base = .ok config ∧ i.Sets base config := by
  obtain ⟨c, sized, width, keywords, operators, prefixes, encoding⟩ := sizedSet wide base
  obtain ⟨d, worded, keywords', operators', prefixes', width', encoding'⟩ := wordedSet words c
  refine ⟨d, ?_, ?_⟩
  · rw [Invocation.config, sized]
    exact worded
  · exact {
      width := by rw [width', width]
      keywords := fun word => by rw [keywords' word, keywords]
      operators := operators'.trans operators
      prefixes := prefixes'.trans prefixes
      encoding := encoding'.trans encoding }

theorem reportLists (i : Invocation) (console : Console) (tokens : List Token) (diagnostics : Collector)
    (journal : List Event) :
    ({ i.report diagnostics console with output := (i.listing tokens tokens.length).map console.shown }.after
      i.verbose journal).Lists i console tokens diagnostics journal where
  output := listingShown i console tokens tokens.length
  errors := by
    simp only [Outcome.after, Invocation.report]
    congr 1
    by_cases none : diagnostics.count = 0
    · rw [if_neg (mt diagnostics.countedAny.mp (not_not_intro none)), if_pos none]
    · rw [if_pos (diagnostics.countedAny.mpr none), if_neg none]
      rfl
  exitCode := by
    simp only [Outcome.after, Invocation.report]
    by_cases none : diagnostics.count = 0
    · rw [if_neg (mt diagnostics.countedAny.mp (not_not_intro none)), if_neg (fun both => both.2 none)]
    · rw [if_pos (diagnostics.countedAny.mpr none)]
      cases strict : i.strict <;> simp [Outcome.ofMessages, none]

theorem invocationRan {environment : Environment} {files : Files} {bytes : List UInt8} {lexer scanned : Lexer}
    {tokens : List Token} {console : Console} {layer : TextLayer} (holds : files i.path = .file bytes)
    (plain : '\x00' ∉ i.path.toList) (loaded : environment.load.1 = .ok base) (made : i.config base = .ok config)
    (opened : Lexer.ofFile files i.path config layer = .ok (.ok (), lexer))
    (tokenized : lexer.tokenize = (.ok tokens, scanned)) :
    i.run environment files console layer = .ok ({ i.report scanned.diagnostics console with
      output := (i.listing tokens scanned.tokenCount).map console.shown }.after i.verbose
        (environment.load.2 ++ scanned.close.source.journal.toList)) := by
  have present : isPresent files i.path = .ok true := by
    rw [isPresent, if_neg (mt List.contains_iff_mem.mp plain), holds]
  simp only [Invocation.run, present, bind, Except.bind, if_true, Invocation.runPresent, loaded, made, opened,
    Invocation.list, Lexer.tokenizeAndClose, tokenized]
  rfl

theorem fileCounted {files : Files} {path : String} {bytes : List UInt8} {c : Config} {e : Encoding}
    (file : files path = .file bytes) (plain : '\x00' ∉ path.toList)
    (named : Encoding.named? c.encoding = some e) (fits : c.width.size ≤ sizeLimit) (layer : TextLayer) :
    ∃ lexer tokens scanned, Lexer.ofFile files path c layer = .ok (.ok (), lexer) ∧
      lexer.tokenize = (.ok tokens, scanned) ∧ scanned.tokenCount = tokens.length := by
  have fresh := Source.freshNoted (Source.freshStream (Stream.fileGives e layer bytes fits) path) (.opened path)
  obtain ⟨lexer, scanned, started, tokenized, _⟩ := scanFresh fresh c
  have counted := Lexer.tokensCounted tokenized
  rw [(startedLexer started).1, List.length_nil, Nat.zero_add] at counted
  exact ⟨lexer, _, scanned, (fileOpened file plain named layer).trans (congrArg Except.ok started), tokenized, counted⟩

end

/- Whatever a file holds, whatever stands in the environment and whatever is asked for, the rows are those of the
tokens of the file, and only how a run ends depends on its being strict. -/
theorem listingFaithful {i : Invocation} {files : Files} {bytes : List UInt8} {environment : Environment}
    {base : Config} (holds : files i.path = .file bytes) (plain : '\x00' ∉ i.path.toList)
    (loaded : environment.load.1 = .ok base) (wide : ∀ width ∈ i.width, 1 ≤ width) (words : "" ∉ i.keywords)
    (console : Console) (layer : TextLayer) :
    ∃ config, i.config base = .ok config ∧ i.Sets base config ∧
      (config.width.size ≤ sizeLimit → (Encoding.named? config.encoding).isSome = true →
        ∃ lexer tokens scanned outcome,
          Lexer.ofFile files i.path config layer = .ok (.ok (), lexer) ∧
          lexer.tokenize = (.ok tokens, scanned) ∧
          i.run environment files console layer = .ok outcome ∧
          outcome.Lists i console tokens scanned.diagnostics
            (environment.load.2 ++ scanned.close.source.journal.toList) ∧
          ∀ strict, ∃ other, { i with strict }.run environment files console layer = .ok other ∧
            other.output = outcome.output) := by
  obtain ⟨config, made, sets⟩ := optionsSet wide words base
  refine ⟨config, made, sets, fun fits text => ?_⟩
  obtain ⟨encoding, named⟩ := Option.isSome_iff_exists.mp text
  obtain ⟨lexer, tokens, scanned, opened, tokenized, counted⟩ := fileCounted holds plain named fits layer
  have runs (strict : Bool) : ∃ outcome, { i with strict }.run environment files console layer = .ok outcome ∧
      outcome.Lists { i with strict } console tokens scanned.diagnostics
        (environment.load.2 ++ scanned.close.source.journal.toList) := by
    refine ⟨_, invocationRan (i := { i with strict }) holds plain loaded made opened tokenized, ?_⟩
    rw [counted]
    exact reportLists _ console tokens scanned.diagnostics _
  obtain ⟨outcome, ran, lists⟩ := runs i.strict
  refine ⟨lexer, tokens, scanned, outcome, opened, tokenized, ran, lists, fun strict => ?_⟩
  obtain ⟨other, ranToo, listsToo⟩ := runs strict
  exact ⟨other, ranToo, listsToo.output.trans lists.output.symm⟩

def openBytes : List UInt8 := [0x61, 0x2F, 0x2F, 0x62, 0x0A, 0x22, 0x63]

def openFile : Files := fun path => if path = "f" then .file openBytes else .missing .notFound

def openListing : Invocation where
  path := "f"
  width := some 2
  keywords := ["let"]
  skipComments := true
  strict := true

def openConfig : Config := { Config.standard with
  keywords := ["let"], width := .count 2 Nat.two_pos, keywordsNonempty := by decide }

theorem openFileListed :
    openFile openListing.path = .file openBytes ∧ '\x00' ∉ openListing.path.toList ∧
    Environment.load {} = (.ok .standard, []) ∧ (∀ width ∈ openListing.width, 1 ≤ width) ∧
    "" ∉ openListing.keywords ∧
    ∃ outcome, openListing.run {} openFile = .ok outcome ∧
      outcome.output = ["     1:1  IDENTIFIER       'a'", "     2:1  STRING_LITERAL   'c'",
        "     2:3  EOF              'EOF'", "Total tokens: 4"] ∧
      outcome.exitCode = .diagnostics := by
  have holds : openFile openListing.path = .file openBytes := by decide
  have plain : '\x00' ∉ openListing.path.toList := by decide
  have loaded : Environment.load {} = (.ok .standard, []) := rfl
  have wide : ∀ width ∈ openListing.width, 1 ≤ width := by decide
  have words : "" ∉ openListing.keywords := by decide
  obtain ⟨config, made, _, listed⟩ :=
    listingFaithful holds plain (congrArg Prod.fst loaded) wide words .standard .standard
  have known : openListing.config .standard = .ok openConfig := by rfl
  cases made.symm.trans known
  have named : Encoding.named? openConfig.encoding = some .utf8 := by decide +kernel
  have fits : openConfig.width.size ≤ sizeLimit := by decide
  obtain ⟨lexer, tokens, scanned, outcome, opened, tokenized, ran, lists, _⟩ := listed fits (by rw [named]; rfl)
  have read : Encoding.utf8.textFrom .standard openBytes 2 = (['a', '/', '/', 'b', '\n', '"', 'c'], none) := by cbv
  obtain ⟨l, l', begun, covers⟩ := textCovers fits ['a', '/', '/', 'b', '\n', '"', 'c'] "f" #[.opened "f"]
  have started := fileOpened holds plain named .standard
  rw [show openConfig.width.size = 2 from rfl, Stream.fileText .utf8 .standard openBytes read] at started
  cases opened.symm.trans (started.trans (congrArg Except.ok begun))
  cases tokenized.symm.trans covers.tokens
  have given : Lexeme.tokens openConfig "f" ['a', '/', '/', 'b', '\n', '"', 'c'] =
      [⟨.identifier, "a", ⟨1, 1⟩, "f"⟩, ⟨.comment, "b", ⟨1, 2⟩, "f"⟩,
        ⟨.stringLiteral, "c", ⟨2, 1⟩, "f"⟩, ⟨.endOfInput, "EOF", ⟨2, 3⟩, "f"⟩] := by cbv
  have problems : scanned.diagnostics.stored.toList = [.unterminatedString (some ⟨"f", ⟨2, 1⟩⟩)] :=
    covers.recorded.trans (by cbv)
  have some : scanned.diagnostics.count ≠ 0 := by
    have one : scanned.diagnostics.stored.size = 1 := by rw [← Array.length_toList, problems]; rfl
    rw [Collector.count, one]
    omega
  refine ⟨holds, plain, loaded, wide, words, outcome, ran, ?_, ?_⟩
  · rw [lists.output, given]
    decide +kernel
  · rw [lists.exitCode, if_pos ⟨rfl, some⟩]

end CommandLine

end WindowLex
