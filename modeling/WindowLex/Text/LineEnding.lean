/-! Line ends of text files: a carriage return, alone or before a line feed, reads as one line feed. -/
namespace WindowLex.Text

def unifyFrom (done : List Char) : List Char → List Char
  | [] => done.reverse
  | '\r' :: '\n' :: rest => unifyFrom ('\n' :: done) rest
  | '\r' :: rest => unifyFrom ('\n' :: done) rest
  | c :: rest => unifyFrom (c :: done) rest

def unifyLineEnds (text : List Char) : List Char := unifyFrom [] text

end WindowLex.Text
