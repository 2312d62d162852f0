import WindowLex.Encoding.Registry

/-! Names of text encodings. A name is matched without regard to case, and any run of characters other
than letters, digits and dots counts as one underscore between the parts it separates. -/
namespace WindowLex.Encoding

/-- The lower-case parts of a name; `gap` says that a part has ended and another may follow. -/
def nameParts (started gap : Bool) : List Char → List Char
  | [] => []
  | c :: rest =>
    if c.isAlphanum || c = '.' then
      let part := c.toLower :: nameParts true false rest
      if started && gap then '_' :: part else part
    else nameParts started true rest

def normalName (name : String) : List Char := nameParts false false name.toList

def lookup? (name : String) : Option Registered :=
  if name.toList.contains '\x00' then none
  else
    let name := normalName name
    let undotted := name.map fun c => if c = '.' then '_' else c
    let found := registry.find? fun entry =>
      entry.name.toList = name
        || entry.aliases.any fun known => known.toList = name || known.toList = undotted
    found.map Entry.meaning

def isKnown (name : String) : Bool := (lookup? name).isSome

theorem lookupNoNull {name : String} (found : (lookup? name).isSome = true) :
    name.toList.contains '\x00' = false := by
  refine Bool.eq_false_iff.mpr fun null => ?_
  rw [lookup?, if_pos null] at found
  contradiction

theorem nullUnknown {name : String} (null : '\x00' ∈ name.toList) : isKnown name = false :=
  Bool.eq_false_iff.mpr fun known =>
    absurd (List.contains_iff_mem.mpr null) (Bool.eq_false_iff.mp (lookupNoNull known))

def named? (name : String) : Option Encoding :=
  match lookup? name with
  | some (.text encoding) => some encoding
  | _ => none

end WindowLex.Encoding
