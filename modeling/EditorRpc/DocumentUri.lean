import EditorRpc.Wire.Basic

/-!
Names of documents on disk. A path becomes a URI by writing the scheme in front of it and escaping the
colon of a leading drive letter; nothing else is escaped. The way back accepts the escape in either
case and turns every backslash into a slash.
-/

set_option autoImplicit false
set_option relaxedAutoImplicit false

namespace EditorRpc

structure DocumentUri where
  raw : String
deriving DecidableEq

namespace DocumentUri

def scheme : List Char :=
  ['f', 'i', 'l', 'e', ':', '/', '/', '/']

def after? (mark text : List Char) : Option (List Char) :=
  if mark.isPrefixOf text then some (text.drop mark.length) else none

/-- An ASCII letter, a mark and the rest of the text. -/
def drive? (mark : List Char) : List Char → Option (Char × List Char)
  | [] => none
  | letter :: rest =>
    if letter.isAlpha then (after? mark rest).map (letter, ·) else none

def withoutSlash : List Char → List Char
  | '/' :: rest => rest
  | path => path

def escapeDrive (path : List Char) : List Char :=
  match drive? [':'] path with
  | some (letter, tail) => letter :: '%' :: '3' :: 'A' :: tail
  | none => path

def ofPath (path : String) : DocumentUri :=
  ⟨String.ofList (scheme ++ escapeDrive (withoutSlash path.toList))⟩

/-- The path after the scheme: a drive loses its escape, any other path gets its slash back. -/
def restorePath (rest : List Char) : List Char :=
  match (drive? ['%', '3', 'A'] rest).or (drive? ['%', '3', 'a'] rest) with
  | some (letter, tail) => letter :: ':' :: tail
  | none => '/' :: rest

def forwardSlash (c : Char) : Char :=
  if c = '\\' then '/' else c

/-- The path of a URI. One of another scheme is its own path. -/
def path (uri : DocumentUri) : String :=
  let text := uri.raw.toList
  let found :=
    match after? scheme text with
    | some rest => restorePath rest
    | none => text
  String.ofList (found.map forwardSlash)

instance : LT DocumentUri := ⟨fun a b => a.raw < b.raw⟩

instance (a b : DocumentUri) : Decidable (a < b) :=
  inferInstanceAs (Decidable (a.raw < b.raw))

/-- URIs are in the order of their octets. -/
instance : Ord DocumentUri := ⟨fun a b => compareOfLessAndEq a b⟩

end DocumentUri

instance : Wire DocumentUri where
  draft uri := Wire.draft uri.raw
  decode j := (Wire.decode j).map DocumentUri.mk

end EditorRpc
