import WindowLex.CommandLine

/-! The listing command on the files and the environment of its process. -/
namespace WindowLex.CommandLine

def entryOfError : IO.Error → Entry
  | .noFileOrDirectory .. => .missing .notFound
  | .inappropriateType _ code _ => if code = 21 then .folder else .missing .notFolder
  | .permissionDenied .. => .missing (.other "Permission denied")
  | .invalidArgument .. => .missing .longName
  | error => .missing (.other (toString error))

def readEntry (path : String) : IO Entry := do
  try
    return .file (← IO.FS.readBinFile path).toList
  catch error => return entryOfError error

def readEnvironment : IO Environment := do
  let width ← IO.getEnv "STREAMLEX_BUFFER_WIDTH"
  let encoding ← IO.getEnv "STREAMLEX_ENCODING"
  return {
    width := width.map .ofString
    keywords := ← IO.getEnv "STREAMLEX_KEYWORDS"
    encoding := encoding.map .ofString }

end WindowLex.CommandLine

open WindowLex CommandLine in
def main (arguments : List String) : IO UInt32 := do
  let known ← (paths arguments).mapM fun path => return (path, ← readEntry path)
  let files : Files := fun path => (known.lookup path).getD (.missing .notFound)
  match run arguments (← readEnvironment) files with
  | .error fault =>
    (← IO.getStderr).putStrLn fault.message
    return 1
  | .ok outcome =>
    (← IO.getStdout).putStr (textOfLines outcome.output)
    (← IO.getStderr).putStr (textOfLines outcome.errors)
    return outcome.exitCode.number.toUInt32
