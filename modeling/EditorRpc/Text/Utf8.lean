/-!
UTF-8 over lists of octets. Reading goes step by step: a step yields a character, or nothing for the
longest run of octets that could have begun a character and did not become one. Strict reading,
lossy reading and the length of the longest readable beginning are three views of the same steps.
-/

set_option autoImplicit false
set_option relaxedAutoImplicit false

namespace EditorRpc

abbrev Bytes := List UInt8

namespace Utf8

/-- The one to four octets of a character, the six low bits of its number in the last of them. -/
def encodeChar (c : Char) : Bytes :=
  let n := c.toNat
  if n < 0x80 then
    [UInt8.ofNat n]
  else if n < 0x800 then
    [UInt8.ofNat (0xC0 + n / 64), UInt8.ofNat (0x80 + n % 64)]
  else if n < 0x10000 then
    [UInt8.ofNat (0xE0 + n / 4096), UInt8.ofNat (0x80 + n / 64 % 64), UInt8.ofNat (0x80 + n % 64)]
  else
    [UInt8.ofNat (0xF0 + n / 262144), UInt8.ofNat (0x80 + n / 4096 % 64),
      UInt8.ofNat (0x80 + n / 64 % 64), UInt8.ofNat (0x80 + n % 64)]

def encode (text : List Char) : Bytes :=
  text.flatMap encodeChar

def ofString (s : String) : Bytes :=
  encode s.toList

def isTail (b : UInt8) : Bool :=
  0x80 ≤ b.toNat && b.toNat < 0xC0

/-- A second octet that may follow the lead `a` of three or four octets: it must rule out the longer
spelling of a smaller number, the surrogates, and what lies beyond the last character. -/
def mayFollow (a b : UInt8) : Bool :=
  isTail b &&
    (a.toNat != 0xE0 || 0xA0 ≤ b.toNat) && (a.toNat != 0xED || b.toNat < 0xA0) &&
    (a.toNat != 0xF0 || 0x90 ≤ b.toNat) && (a.toNat != 0xF4 || b.toNat < 0x90)

def tailBits (b : UInt8) : Nat :=
  b.toNat - 0x80

/-- The two octets after a lead of three, whose first was checked against the lead. -/
def stepThree (a b : UInt8) : Bytes → Option Char × Bytes
  | [] => (none, [])
  | c :: t =>
    if isTail c then
      (some (Char.ofNat ((a.toNat - 0xE0) * 4096 + tailBits b * 64 + tailBits c)), t)
    else (none, c :: t)

def stepFour (a b : UInt8) : Bytes → Option Char × Bytes
  | [] => (none, [])
  | c :: t =>
    if isTail c then
      match t with
      | [] => (none, [])
      | d :: u =>
        if isTail d then
          (some (Char.ofNat ((a.toNat - 0xF0) * 262144 + tailBits b * 4096 + tailBits c * 64
            + tailBits d)), u)
        else (none, d :: u)
    else (none, c :: t)

/-- One step from the octet `a` on: the character it begins, if it begins one, and the octets after
the step. -/
def step (a : UInt8) (r : Bytes) : Option Char × Bytes :=
  if a.toNat < 0x80 then (some (Char.ofNat a.toNat), r)
  else if a.toNat < 0xC2 then (none, r)
  else if a.toNat < 0xF5 then
    match r with
    | [] => (none, [])
    | b :: s =>
      if a.toNat < 0xE0 then
        if isTail b then (some (Char.ofNat ((a.toNat - 0xC0) * 64 + tailBits b)), s)
        else (none, b :: s)
      else if mayFollow a b then
        if a.toNat < 0xF0 then stepThree a b s else stepFour a b s
      else (none, b :: s)
  else (none, r)

private theorem length_stepThree_le (a b : UInt8) (s : Bytes) :
    (stepThree a b s).2.length ≤ s.length := by
  fun_cases stepThree a b s <;> simp only [List.length_cons, List.length_nil] <;> omega

private theorem length_stepFour_le (a b : UInt8) (s : Bytes) :
    (stepFour a b s).2.length ≤ s.length := by
  fun_cases stepFour a b s <;> simp only [List.length_cons, List.length_nil] <;> omega

theorem length_step_le (a : UInt8) (r : Bytes) : (step a r).2.length ≤ r.length := by
  unfold step
  split
  · exact Nat.le_refl _
  split
  · exact Nat.le_refl _
  split
  · split
    · exact Nat.le_refl _
    · next b s =>
      have three := length_stepThree_le a b s
      have four := length_stepFour_le a b s
      simp only [List.length_cons]
      repeat' split
      all_goals simp
      all_goals omega
  · exact Nat.le_refl _

/-- All steps over a byte string, after those that were done. -/
def piecesOnto (done : List (Option Char)) : Bytes → List (Option Char)
  | [] => done.reverse
  | a :: r => piecesOnto ((step a r).1 :: done) (step a r).2
termination_by bs => bs.length
decreasing_by
  have := length_step_le a r
  simp only [List.length_cons]; omega

/-- All steps over a byte string, `none` where octets form no character. -/
def pieces (bs : Bytes) : List (Option Char) :=
  piecesOnto [] bs

private theorem piecesOnto_eq (done : List (Option Char)) :
    ∀ bs : Bytes, piecesOnto done bs = done.reverse ++ piecesOnto [] bs
  | [] => by simp [piecesOnto]
  | a :: r => by
    have before := piecesOnto_eq ((step a r).1 :: done) (step a r).2
    have alone := piecesOnto_eq [(step a r).1] (step a r).2
    rw [piecesOnto, before, piecesOnto, alone]
    simp
termination_by bs => bs.length
decreasing_by
  all_goals
    have := length_step_le a r
    simp only [List.length_cons]; omega

@[simp]
theorem pieces_nil : pieces [] = [] := by
  simp [pieces, piecesOnto]

theorem pieces_cons (a : UInt8) (r : Bytes) :
    pieces (a :: r) = (step a r).1 :: pieces (step a r).2 := by
  rw [pieces, piecesOnto, piecesOnto_eq]
  simp [pieces]

def decode? (bs : Bytes) : Option (List Char) :=
  if (pieces bs).all Option.isSome then some ((pieces bs).filterMap id) else none

/-- The text of a byte string, with U+FFFD for every step that yields no character. -/
def decodeLossy (bs : Bytes) : List Char :=
  (pieces bs).map (Option.getD · '\uFFFD')

def validLength (bs : Bytes) : Nat :=
  (encode (((pieces bs).takeWhile Option.isSome).filterMap id)).length

end Utf8

end EditorRpc
