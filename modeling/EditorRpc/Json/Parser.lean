import EditorRpc.Json.Literal
import EditorRpc.Json.Numeral
import EditorRpc.Keyed

/-!
Reading a document from octets. A value is read with a reader for the values inside it; there is none
once the limit of open brackets is reached, so the nesting bounds the recursion, and the lists are
bounded by the octets that each element takes.
-/

set_option autoImplicit false
set_option relaxedAutoImplicit false

namespace EditorRpc.Json

namespace Read

def comma : UInt8 := 0x2C

def word : (text : Bytes) → (bound : Nat) → (s : Bytes) → s.length < bound →
    Except Fault (Parsed Unit bound)
  | [], _, s, h => .ok ⟨(), s, h⟩
  | _ :: _, _, [], _ => .error (.here .endInValue [])
  | a :: rest, bound, b :: r, h =>
    if a = b then word rest bound r (Nat.lt_of_succ_lt h) else .error (.here .wordExpected r)

/-- The elements of an array, from where one is due to the closing bracket, behind those that were
read before, last first. -/
def elements (item : Parser Json) (bound : Nat) (done : List Json) (s : Bytes)
    (h : s.length ≤ bound) : Except Fault (Parsed (List Json) bound) :=
  match item s with
  | .error fault => .error fault
  | .ok p =>
    match hs : skipGap p.rest with
    | [] => .error (.next .endInList [])
    | b :: r =>
      have shorter : r.length < s.length := by
        have gap := length_skipGap_le p.rest
        have read := p.shorter
        simp only [hs, List.length_cons] at gap
        omega
      if b = 0x5D then
        .ok ⟨(p.value :: done).reverse, r, Nat.lt_of_lt_of_le shorter h⟩
      else if b = comma then
        if (skipGap r).head? = some 0x5D then .error (.next .trailingComma (skipGap r))
        else elements item bound (p.value :: done) r (Nat.le_trans (Nat.le_of_lt shorter) h)
      else .error (.next .listEndExpected (b :: r))
termination_by s.length

def array (item : Parser Json) : Parser Json := fun s =>
  match hs : skipGap s with
  | [] => .error (.next .endInList [])
  | b :: r =>
    if b = 0x5D then
      .ok ⟨.arr [], r, by
        have gap := length_skipGap_le s
        simp only [hs, List.length_cons] at gap
        omega⟩
    else
      match Parser.ofBounded (fun bound => elements item bound []) s with
      | .error fault => .error fault
      | .ok p => .ok ⟨.arr p.value, p.rest, p.shorter⟩

def colon : Parser Unit := fun s =>
  match hs : skipGap s with
  | [] => .error (.next .endInObject [])
  | b :: r =>
    if b = 0x3A then
      .ok ⟨(), r, by
        have gap := length_skipGap_le s
        simp only [hs, List.length_cons] at gap
        omega⟩
    else .error (.next .colonExpected (b :: r))

def memberName : Parser String := fun s =>
  match hs : skipGap s with
  | [] => .error (.next .endInValue [])
  | b :: r =>
    if b = 0x22 then
      match literal r with
      | .error fault => .error fault
      | .ok p => .ok ⟨p.value, p.rest, by
          have gap := length_skipGap_le s
          have read := p.shorter
          simp only [hs, List.length_cons] at gap
          omega⟩
    else .error (.next .keyExpected (b :: r))

def memberEntry (item : Parser Json) : Parser (String × Json) := fun s => do
  let name ← memberName s
  let mark ← colon name.rest
  let value ← item mark.rest
  return ⟨(name.value, value.value), value.rest, by
    have := name.shorter
    have := mark.shorter
    have := value.shorter
    omega⟩

/-- The members of an object, from where one is due to the closing brace, in order of their names. Of
several under one name the last counts. -/
def members (item : Parser Json) (bound : Nat) (done : List (String × Json)) (s : Bytes)
    (h : s.length ≤ bound) : Except Fault (Parsed (List (String × Json)) bound) :=
  match memberEntry item s with
  | .error fault => .error fault
  | .ok p =>
    match hs : skipGap p.rest with
    | [] => .error (.next .endInObject [])
    | b :: r =>
      have shorter : r.length < s.length := by
        have gap := length_skipGap_le p.rest
        have read := p.shorter
        simp only [hs, List.length_cons] at gap
        omega
      if b = 0x7D then
        .ok ⟨Keyed.sorted (p.value :: done), r, Nat.lt_of_lt_of_le shorter h⟩
      else if b = comma then
        if (skipGap r).head? = some 0x7D then .error (.next .trailingComma (skipGap r))
        else members item bound (p.value :: done) r (Nat.le_trans (Nat.le_of_lt shorter) h)
      else .error (.next .objectEndExpected (b :: r))
termination_by s.length

def object (item : Parser Json) : Parser Json := fun s =>
  match hs : skipGap s with
  | [] => .error (.next .endInObject [])
  | b :: r =>
    if b = 0x7D then
      .ok ⟨.obj [], r, by
        have gap := length_skipGap_le s
        simp only [hs, List.length_cons] at gap
        omega⟩
    else
      match Parser.ofBounded (fun bound => members item bound []) s with
      | .error fault => .error fault
      | .ok p => .ok ⟨.obj p.value, p.rest, p.shorter⟩

/-- A value whose first octet is `b`, the octets `r` after it. -/
def valueFrom (inner : Option (Parser Json)) (b : UInt8) (r : Bytes) :
    Except Fault (Parsed Json (r.length + 1)) :=
  if b = 0x22 then (literal r).map fun p => ⟨.str p.value, p.rest, Nat.lt_succ_of_lt p.shorter⟩
  else if b = 0x5B || b = 0x7B then
    match inner with
    | none => .error (.next .tooDeep (b :: r))
    | some item =>
      (if b = 0x5B then array item r else object item r).map fun p =>
        ⟨p.value, p.rest, Nat.lt_succ_of_lt p.shorter⟩
  else if b = 0x2D || isDigit b then number (b :: r)
  else if b = 0x74 then
    (word [0x72, 0x75, 0x65] _ r (length_lt_succ r)).map fun p => ⟨.bool true, p.rest, p.shorter⟩
  else if b = 0x66 then
    (word [0x61, 0x6C, 0x73, 0x65] _ r (length_lt_succ r)).map fun p =>
      ⟨.bool false, p.rest, p.shorter⟩
  else if b = 0x6E then
    (word [0x75, 0x6C, 0x6C] _ r (length_lt_succ r)).map fun p => ⟨.null, p.rest, p.shorter⟩
  else .error (.next .valueExpected (b :: r))

def node (inner : Option (Parser Json)) : Parser Json := fun s =>
  match hs : skipGap s with
  | [] => .error (.next .endInValue [])
  | b :: r =>
    (valueFrom inner b r).map fun p => ⟨p.value, p.rest, by
      have gap := length_skipGap_le s
      have read := p.shorter
      simp only [hs, List.length_cons] at gap
      omega⟩

/-- A value that may open `levels` brackets inside one another. -/
def value : (levels : Nat) → Parser Json
  | 0 => node none
  | levels + 1 => node (some (value levels))

end Read

def nestingLimit : Nat := 127

def parse (input : Bytes) : Except SyntaxError Json :=
  match Read.value nestingLimit input with
  | .error fault => .error (fault.locate input)
  | .ok p =>
    match skipGap p.rest with
    | [] => .ok p.value
    | b :: r => .error ((Fault.next .trailingCharacters (b :: r)).locate input)

def ofString (text : String) : Except SyntaxError Json :=
  parse (Utf8.ofString text)

end EditorRpc.Json
