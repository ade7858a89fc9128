import EditorRpc.DocumentUri
import EditorRpc.Text.CharClass
import EditorRpc.Text.Utf8

/-!
URLs of files. Reading drops control characters and spaces at both ends and the line breaks and tabs
within. The path is cut into segments, those that stand for a directory are resolved, empty ones in
front are dropped, and what may not stand in a path is escaped. Queries, fragments and hosts are beyond
this reader.
-/

set_option autoImplicit false
set_option relaxedAutoImplicit false

namespace EditorRpc

/-- The URL of a file: the path with which it continues after its scheme and an empty host. -/
structure FileUrl where
  path : String
deriving DecidableEq

inductive UrlFault
  | relative
  | notFile
deriving DecidableEq, Repr

def UrlFault.message : UrlFault → String
  | .relative => "relative URL without a base"
  | .notFile => "not a file URL"

namespace FileUrl

def scheme : String := "file"

/-- A control character or a space. -/
def isEdge (c : Char) : Bool :=
  c.toNat ≤ 0x20

/-- A character that is dropped wherever it stands. -/
def isBreak (c : Char) : Bool :=
  c = '\t' || c = '\n' || c = '\r'

def clean (text : List Char) : List Char :=
  (Text.dropEndWhile isEdge (text.dropWhile isEdge)).filter (!isBreak ·)

def hasScheme : List Char → Bool
  | [] => false
  | c :: rest =>
    let isMark (d : Char) := d = '+' || d = '-' || d = '.'
    c.isAlpha && (rest.dropWhile fun d => d.isAlphanum || isMark d).head? = some ':'

def upperHex (n : Nat) : Char :=
  if n < 10 then Char.ofNat (0x30 + n) else Char.ofNat (0x41 + n - 10)

def mustEscape (c : Char) : Bool :=
  c.toNat ≤ 0x20 || 0x7F ≤ c.toNat ||
    ['"', '<', '>', '\x60', '\x7b', '\x7d'].contains c

def escapeChar (c : Char) : List Char :=
  if mustEscape c then
    (Utf8.encodeChar c).flatMap fun b => ['%', upperHex (b.toNat / 16), upperHex (b.toNat % 16)]
  else [c]

/-- The segments of a path, cut at every slash. A backslash counts as one. -/
def segments : List Char → List (List Char)
  | [] => [[]]
  | c :: rest =>
    if c = '/' || c = '\\' then [] :: segments rest
    else
      match segments rest with
      | [] => [[c]]
      | segment :: later => (c :: segment) :: later

/-- The segment with its escaped points written out. -/
def plainPoints : List Char → List Char
  | '%' :: '2' :: 'e' :: rest => '.' :: plainPoints rest
  | '%' :: '2' :: 'E' :: rest => '.' :: plainPoints rest
  | c :: rest => c :: plainPoints rest
  | [] => []

/-- The segment stands for the directory that it is in. -/
def isSame (segment : List Char) : Bool :=
  plainPoints segment = ['.']

def isAbove (segment : List Char) : Bool :=
  plainPoints segment = ['.', '.']

def isDrive : List Char → Bool
  | [letter, mark] => letter.isAlpha && (mark = ':' || mark = '|')
  | _ => false

/-- The path above a path, both innermost first. There is nothing above the root and above a drive. -/
def above : List (List Char) → List (List Char)
  | [] => []
  | segment :: outer => if isDrive segment then segment :: outer else outer

/-- The path with one more segment, innermost first. A drive that stands in front is marked by a
colon. -/
def enter (path : List (List Char)) (segment : List Char) : List (List Char) :=
  if isSame segment then path
  else if isAbove segment then above path
  else if path.isEmpty && isDrive segment then [segment.take 1 ++ [':']]
  else segment :: path

/-- The segments without those that stand for a directory. Where one of them is the last, the path ends
in a slash. -/
def resolve (path : List (List Char)) : List (List Char) :=
  let ending := if path.getLast?.any fun last => isSame last || isAbove last then [[]] else []
  ((path ++ ending).foldl enter []).reverse

/-- The segments without the empty ones in front, unless there is no other. -/
def withoutEmpty : List (List Char) → List (List Char)
  | [] :: segment :: later => withoutEmpty (segment :: later)
  | path => path

def normalPath (text : List Char) : List Char :=
  (withoutEmpty (resolve (segments text))).flatMap fun segment => '/' :: segment.flatMap escapeChar

def parse (text : List Char) : Except UrlFault FileUrl :=
  let cleaned := clean text
  match DocumentUri.after? DocumentUri.scheme cleaned with
  | some rest => .ok ⟨String.ofList (normalPath rest)⟩
  | none => .error (if hasScheme cleaned then .notFile else .relative)

end FileUrl

namespace DocumentUri

def toUrl (uri : DocumentUri) : Except UrlFault FileUrl :=
  FileUrl.parse uri.raw.toList

def ofUrl (url : FileUrl) : DocumentUri :=
  ⟨FileUrl.scheme ++ "://" ++ url.path⟩

end DocumentUri

end EditorRpc
