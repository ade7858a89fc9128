import EditorRpc.DocumentUri

/-!
Paths and the URIs made of them. A drive is a letter and a mark for its colon: in a path the colon
itself, in a URI its escape in either case, of which only that in upper case is written. So neither
way back is exact, and the exceptions are those texts that begin with a drive of another mark. Main
statements: `path_ofPath`, by which paths come back, and `ofPath_path_eq_iff`, by which URIs do.
-/

set_option autoImplicit false
set_option relaxedAutoImplicit false

namespace EditorRpc.DocumentUri

def escapes : List (List Char) :=
  [['%', '3', 'A'], ['%', '3', 'a']]

/-- The marks of a drive that are never written after the scheme. -/
def unwritten : List (List Char) :=
  [[':'], ['%', '3', 'a']]

/-- The text is an ASCII letter, one of the marks, and the rest. -/
def DriveThen (marks : List (List Char)) (text : List Char) (letter : Char) (rest : List Char) :
    Prop :=
  letter.isAlpha = true ∧ ∃ mark ∈ marks, text = letter :: (mark ++ rest)

def BeginsWithDrive (marks : List (List Char)) (text : List Char) : Prop :=
  ∃ letter rest, DriveThen marks text letter rest

def slashed (text : List Char) : List Char :=
  text.map fun c => if c = '\\' then '/' else c

variable {marks : List (List Char)} {mark text rest : List Char} {letter : Char}

/-! ### Slashes -/

private theorem mem_slashed {c : Char} : c ∈ slashed text → c ≠ '\\' := by
  intro member
  obtain ⟨d, _, rfl⟩ := List.mem_map.mp member
  split
  · decide
  · assumption

private theorem slashed_eq_self_iff : slashed text = text ↔ '\\' ∉ text := by
  constructor
  · intro same member
    rw [← same] at member
    exact mem_slashed member rfl
  · intro straight
    calc
      slashed text = text.map id := List.map_congr_left fun c member =>
        if_neg fun (same : c = '\\') => straight (same ▸ member)
      _ = text := List.map_id text

private theorem slashed_slashed (text : List Char) : slashed (slashed text) = slashed text :=
  slashed_eq_self_iff.mpr fun member => mem_slashed member rfl

private theorem eq_of_slashed_eq {part : List Char} (apart : '/' ∉ part)
    (same : slashed text = part) : text = part := by
  have straight : '\\' ∉ text := fun member =>
    apart (same ▸ List.mem_map.mpr ⟨'\\', member, rfl⟩)
  rw [← same, slashed_eq_self_iff.mpr straight]

/-! ### Drives -/

private theorem ne_of_isAlpha {c : Char} (alpha : letter.isAlpha = true)
    (other : c.isAlpha = false) : letter ≠ c := by
  rintro rfl
  exact absurd (alpha.symm.trans other) (by decide)

theorem BeginsWithDrive.mono {more : List (List Char)} (inside : marks ⊆ more)
    (drive : BeginsWithDrive marks text) : BeginsWithDrive more text := by
  obtain ⟨letter, rest, alpha, mark, member, split⟩ := drive
  exact ⟨letter, rest, alpha, mark, inside member, split⟩

private theorem after?_eq_some_iff : after? mark text = some rest ↔ text = mark ++ rest := by
  unfold after?
  constructor
  · intro found
    split at found
    · next starts =>
      obtain ⟨tail, rfl⟩ := List.isPrefixOf_iff_prefix.mp starts
      rw [List.drop_left, Option.some.injEq] at found
      rw [found]
    · cases found
  · rintro rfl
    rw [if_pos (List.isPrefixOf_iff_prefix.mpr (List.prefix_append mark rest)), List.drop_left]

private theorem drive?_eq_some_iff :
    drive? mark text = some (letter, rest) ↔ DriveThen [mark] text letter rest := by
  cases text with
  | nil => simp [drive?, DriveThen]
  | cons c tail =>
    simp only [drive?, DriveThen, List.mem_singleton, exists_eq_left, List.cons.injEq]
    split
    · next alpha =>
      simp only [Option.map_eq_some_iff, after?_eq_some_iff, Prod.mk.injEq]
      grind
    · next alpha => grind

private theorem drive?_eq_none_iff : drive? mark text = none ↔ ¬BeginsWithDrive [mark] text := by
  rw [Option.eq_none_iff_forall_ne_some]
  simp only [BeginsWithDrive, ne_eq, Prod.forall, drive?_eq_some_iff, not_exists]

theorem escapeDrive_of_drive (drive : DriveThen [[':']] text letter rest) :
    escapeDrive text = letter :: '%' :: '3' :: 'A' :: rest := by
  rw [escapeDrive, drive?_eq_some_iff.mpr drive]

theorem escapeDrive_of_not_drive (plain : ¬BeginsWithDrive [[':']] text) :
    escapeDrive text = text := by
  rw [escapeDrive, drive?_eq_none_iff.mpr plain]

theorem restorePath_of_drive (drive : DriveThen escapes text letter rest) :
    restorePath text = letter :: ':' :: rest := by
  obtain ⟨alpha, mark, escaped, rfl⟩ := drive
  simp only [escapes, List.mem_cons, List.not_mem_nil, or_false] at escaped
  rcases escaped with rfl | rfl
  · simp [restorePath, drive?, after?, alpha]
  · simp [restorePath, drive?, after?, alpha]

theorem restorePath_of_not_drive (plain : ¬BeginsWithDrive escapes text) :
    restorePath text = '/' :: text := by
  have none {mark : List Char} (escaped : mark ∈ escapes) : drive? mark text = none :=
    drive?_eq_none_iff.mpr fun drive => plain (drive.mono (by simpa using escaped))
  rw [restorePath, none (by decide), none (by decide)]
  rfl

private theorem beginsWithDrive_of_slashed (apart : ∀ mark ∈ marks, '/' ∉ mark)
    (drive : BeginsWithDrive marks (slashed text)) : BeginsWithDrive marks text := by
  obtain ⟨letter, rest, alpha, mark, member, split⟩ := drive
  obtain ⟨c, tail, rfl, same, split⟩ := List.map_eq_cons_iff.mp split
  obtain ⟨part, after, rfl, marked, _⟩ := List.map_eq_append_iff.mp split
  have turned : slashed [c] = [letter] := congrArg (fun d => [d]) same
  have ofLetter : [c] = [letter] := by
    refine eq_of_slashed_eq (fun slash => ?_) turned
    exact ne_of_isAlpha alpha (by decide) (List.mem_singleton.mp slash).symm
  have ofMark : part = mark := eq_of_slashed_eq (apart mark member) marked
  refine ⟨letter, after, alpha, mark, member, ?_⟩
  rw [List.singleton_inj.mp ofLetter, ofMark]

/-! ### There and back -/

private theorem not_colon_of_escape (drive : DriveThen escapes text letter rest) :
    ¬BeginsWithDrive [[':']] text := by
  obtain ⟨_, mark, escaped, rfl⟩ := drive
  rintro ⟨_, _, _, _, only, same⟩
  obtain rfl := List.mem_singleton.mp only
  have first := congrArg List.head? (List.cons.inj same).2
  simp only [escapes, List.mem_cons, List.not_mem_nil, or_false] at escaped
  rcases escaped with rfl | rfl
  · exact absurd first (by simp)
  · exact absurd first (by simp)

private theorem restorePath_escapeDrive_of_drive
    (drive : DriveThen ([':'] :: escapes) text letter rest) :
    restorePath (escapeDrive text) = letter :: ':' :: rest := by
  obtain ⟨alpha, mark, marked, split⟩ := drive
  rcases List.mem_cons.mp marked with rfl | escaped
  · rw [escapeDrive_of_drive ⟨alpha, _, List.mem_singleton_self _, split⟩]
    exact restorePath_of_drive ⟨alpha, ['%', '3', 'A'], by decide, rfl⟩
  · have drive : DriveThen escapes text letter rest := ⟨alpha, mark, escaped, split⟩
    rw [escapeDrive_of_not_drive (not_colon_of_escape drive), restorePath_of_drive drive]

private theorem restorePath_escapeDrive_of_not_drive
    (plain : ¬BeginsWithDrive ([':'] :: escapes) text) :
    restorePath (escapeDrive text) = '/' :: text := by
  have noColon : ¬BeginsWithDrive [[':']] text := fun drive => plain (drive.mono (by simp))
  have noEscape : ¬BeginsWithDrive escapes text := fun drive =>
    plain (drive.mono (List.subset_cons_self _ _))
  rw [escapeDrive_of_not_drive noColon, restorePath_of_not_drive noEscape]

private theorem slashed_drive (alpha : letter.isAlpha = true) (rest : List Char) :
    slashed (letter :: ':' :: rest) = letter :: ':' :: slashed rest := by
  have straight : letter ≠ '\\' := ne_of_isAlpha alpha (by decide)
  simp [slashed, straight]

private theorem slashed_slash (rest : List Char) : slashed ('/' :: rest) = '/' :: slashed rest := rfl

private theorem withoutSlash_of_isAlpha (alpha : letter.isAlpha = true) (rest : List Char) :
    withoutSlash (letter :: rest) = letter :: rest := by
  unfold withoutSlash
  split
  · next same => exact absurd (List.cons.inj same).1 (ne_of_isAlpha alpha (by decide))
  · rfl

private theorem toList_path_of_scheme {uri : DocumentUri}
    (file : uri.raw.toList = scheme ++ rest) : uri.path.toList = slashed (restorePath rest) := by
  have found : after? scheme uri.raw.toList = some rest := after?_eq_some_iff.mpr file
  simp only [path, found, String.toList_ofList]
  rfl

private theorem toList_path_ofPath (path : String) :
    (ofPath path).path.toList =
      slashed (restorePath (escapeDrive (withoutSlash path.toList))) :=
  toList_path_of_scheme String.toList_ofList

/-- A path that was read back once is read back as it is. -/
private theorem restorePath_again (text : List Char) :
    restorePath (escapeDrive (withoutSlash (slashed (restorePath (escapeDrive text))))) =
      slashed (restorePath (escapeDrive text)) := by
  by_cases drive : BeginsWithDrive ([':'] :: escapes) text
  · obtain ⟨letter, rest, drive⟩ := drive
    rw [restorePath_escapeDrive_of_drive drive, slashed_drive drive.1,
      withoutSlash_of_isAlpha drive.1]
    exact restorePath_escapeDrive_of_drive ⟨drive.1, [':'], List.mem_cons_self, rfl⟩
  · have still : ¬BeginsWithDrive ([':'] :: escapes) (slashed text) := fun turned =>
      drive (beginsWithDrive_of_slashed (by decide) turned)
    rw [restorePath_escapeDrive_of_not_drive drive, slashed_slash]
    exact restorePath_escapeDrive_of_not_drive still

/-- A path that begins with a slash comes back with its backslashes turned, unless a drive stands
behind the slash: then it comes back without the slash. A path that begins with a drive comes back
likewise. What came back once comes back unchanged. -/
theorem path_ofPath (path : String) :
    (∀ tail, path.toList = '/' :: tail →
      ((ofPath path).path.toList = slashed path.toList ↔
        ¬BeginsWithDrive ([':'] :: escapes) tail) ∧
      ∀ letter rest, DriveThen ([':'] :: escapes) tail letter rest →
        (ofPath path).path.toList = letter :: ':' :: slashed rest) ∧
    (BeginsWithDrive [[':']] path.toList →
      (ofPath path).path.toList = slashed path.toList) ∧
    (ofPath (ofPath path).path).path = (ofPath path).path := by
  refine ⟨fun tail absolute => ?_, fun drive => ?_, ?_⟩
  · have bare : (ofPath path).path.toList = slashed (restorePath (escapeDrive tail)) := by
      rw [toList_path_ofPath, absolute, withoutSlash]
    have lost : ∀ letter rest, DriveThen ([':'] :: escapes) tail letter rest →
        (ofPath path).path.toList = letter :: ':' :: slashed rest := by
      intro letter rest drive
      rw [bare, restorePath_escapeDrive_of_drive drive, slashed_drive drive.1]
    refine ⟨⟨?_, fun plain => ?_⟩, lost⟩
    · rintro same ⟨letter, rest, drive⟩
      rw [lost letter rest drive, absolute, slashed_slash] at same
      exact ne_of_isAlpha drive.1 (by decide) (List.cons.inj same).1
    · rw [bare, restorePath_escapeDrive_of_not_drive plain, absolute]
  · obtain ⟨letter, rest, alpha, mark, only, split⟩ := drive
    obtain rfl := List.mem_singleton.mp only
    have drive : DriveThen ([':'] :: escapes) path.toList letter rest :=
      ⟨alpha, [':'], List.mem_cons_self, split⟩
    have bare : withoutSlash path.toList = path.toList := by
      rw [split]
      exact withoutSlash_of_isAlpha alpha _
    rw [toList_path_ofPath, bare, restorePath_escapeDrive_of_drive drive, split]
    rfl
  · apply String.toList_injective
    rw [toList_path_ofPath, toList_path_ofPath, restorePath_again, slashed_slashed]

/-- An escaped drive behind a slash loses the slash; a drive without a slash comes back. -/
theorem path_ofPath_drives :
    "/c%3a\\notes".toList = '/' :: "c%3a\\notes".toList ∧
    DriveThen ([':'] :: escapes) "c%3a\\notes".toList 'c' "\\notes".toList ∧
    (ofPath "/c%3a\\notes").path.toList = "c:/notes".toList ∧
    BeginsWithDrive [[':']] "C:\\a".toList ∧
    (ofPath "C:\\a").path.toList = "C:/a".toList := by
  have absolute : "/c%3a\\notes".toList = '/' :: "c%3a\\notes".toList := by decide +kernel
  have escaped : DriveThen ([':'] :: escapes) "c%3a\\notes".toList 'c' "\\notes".toList :=
    ⟨by decide, ['%', '3', 'a'], by decide, by decide +kernel⟩
  have drive : BeginsWithDrive [[':']] "C:\\a".toList :=
    ⟨'C', "\\a".toList, by decide, [':'], by decide, by decide +kernel⟩
  refine ⟨absolute, escaped, ?_, drive, ?_⟩
  · rw [((path_ofPath _).1 _ absolute).2 _ _ escaped]
    decide +kernel
  · rw [(path_ofPath _).2.1 drive]
    decide +kernel

private theorem escapeDrive_again (alpha : letter.isAlpha = true) (rest : List Char) :
    escapeDrive (withoutSlash (slashed (letter :: ':' :: rest))) =
      letter :: '%' :: '3' :: 'A' :: slashed rest := by
  rw [slashed_drive alpha, withoutSlash_of_isAlpha alpha]
  exact escapeDrive_of_drive ⟨alpha, [':'], List.mem_cons_self, rfl⟩

private theorem escapeDrive_restorePath_eq_iff :
    escapeDrive (withoutSlash (slashed (restorePath rest))) = rest ↔
      '\\' ∉ rest ∧ ¬BeginsWithDrive unwritten rest := by
  by_cases escape : BeginsWithDrive escapes rest
  · obtain ⟨letter, tail, drive⟩ := escape
    rw [restorePath_of_drive drive, escapeDrive_again drive.1]
    obtain ⟨alpha, mark, escaped, rfl⟩ := drive
    simp only [escapes, List.mem_cons, List.not_mem_nil, or_false] at escaped
    rcases escaped with rfl | rfl
    · have written : ¬BeginsWithDrive unwritten (letter :: '%' :: '3' :: 'A' :: tail) := by
        simp [BeginsWithDrive, DriveThen, unwritten]
      have straight : '\\' ≠ letter := (ne_of_isAlpha alpha (by decide)).symm
      simp [written, straight, slashed_eq_self_iff]
    · have read : BeginsWithDrive unwritten (letter :: '%' :: '3' :: 'a' :: tail) :=
        ⟨letter, tail, alpha, ['%', '3', 'a'], by decide, rfl⟩
      simp [read]
  · rw [restorePath_of_not_drive escape, slashed_slash, withoutSlash]
    by_cases colon : BeginsWithDrive [[':']] rest
    · obtain ⟨letter, tail, alpha, mark, only, rfl⟩ := colon
      obtain rfl := List.mem_singleton.mp only
      have read : BeginsWithDrive unwritten (letter :: ':' :: tail) :=
        ⟨letter, tail, alpha, [':'], by decide, rfl⟩
      have turned : DriveThen [[':']] (slashed (letter :: ([':'] ++ tail))) letter (slashed tail) :=
        ⟨alpha, [':'], List.mem_cons_self, slashed_drive alpha tail⟩
      rw [escapeDrive_of_drive turned]
      simp [read]
    · have plain : ¬BeginsWithDrive unwritten rest := by
        rintro ⟨letter, tail, alpha, mark, member, split⟩
        rcases List.mem_cons.mp member with rfl | escaped
        · exact colon ⟨letter, tail, alpha, [':'], List.mem_cons_self, split⟩
        · exact escape ⟨letter, tail, alpha, mark, List.mem_cons_of_mem _ escaped, split⟩
      have still : ¬BeginsWithDrive [[':']] (slashed rest) := fun turned =>
        colon (beginsWithDrive_of_slashed (by decide) turned)
      rw [escapeDrive_of_not_drive still, slashed_eq_self_iff]
      exact (and_iff_left plain).symm

private theorem ofPath_path_eq_iff_of_scheme {uri : DocumentUri}
    (file : uri.raw.toList = scheme ++ rest) :
    ofPath uri.path = uri ↔ '\\' ∉ rest ∧ ¬BeginsWithDrive unwritten rest := by
  rw [← escapeDrive_restorePath_eq_iff, ← toList_path_of_scheme file]
  constructor
  · intro same
    rw [← same, ofPath, String.toList_ofList] at file
    exact List.append_cancel_left file
  · intro same
    rw [ofPath, same, ← file, String.ofList_toList]

/-- A URI is made again of its path exactly if it is that of a file, has no backslash, and does not
spell the colon of a drive otherwise than it is written. -/
theorem ofPath_path_eq_iff (uri : DocumentUri) :
    ofPath uri.path = uri ↔
      ∃ rest, uri.raw.toList = scheme ++ rest ∧ '\\' ∉ uri.raw.toList ∧
        ¬BeginsWithDrive unwritten rest := by
  have straight : '\\' ∉ scheme := by decide
  constructor
  · intro same
    have file : uri.raw.toList = scheme ++ escapeDrive (withoutSlash uri.path.toList) := by
      conv => lhs; rw [← same, ofPath, String.toList_ofList]
    obtain ⟨turned, plain⟩ := (ofPath_path_eq_iff_of_scheme file).mp same
    refine ⟨_, file, ?_, plain⟩
    rw [file, List.mem_append]
    exact not_or.mpr ⟨straight, turned⟩
  · rintro ⟨rest, file, turned, plain⟩
    rw [file, List.mem_append, not_or] at turned
    exact (ofPath_path_eq_iff_of_scheme file).mpr ⟨turned.2, plain⟩

end EditorRpc.DocumentUri
