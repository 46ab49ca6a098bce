/-
This file models the loops of `ConfigParser` index by index, and proves that they stay
inside the line and end.

Each loop reads `line[idx]` before it compares the index with the length. That is allowed
at the length itself, where a `std::string` has a null, and nowhere behind it. The loop of
`loadConfig2Map` that looks for the equals sign does not compare at all: it ends because a
line that `decideLineType` takes for a key has an equals sign below its length.

The loops have fuel, one unit for a turn. With more than the length of the line they never
run out of it, and they give what the functions on texts give.
-/

import Nattan.ConfigParser
import Nattan.Memory

namespace Nattan

namespace ConfigParser

/-- `line[idx]` of a `std::string`, which has a null behind its last character. -/
def charAt (line : Text) (idx : Int) : Except Fault UInt8 :=
  Nattan.load (line ++ [0]) idx

/-- `substr`, which throws when it is to begin behind the end. -/
def substr (text : Text) (pos count : Nat) : Except Fault Text :=
  if pos ≤ text.length then .ok ((text.drop pos).take count) else .error (.outOfBounds pos)

/-- The loop over the spaces at the beginning of a line: whether the line is empty. -/
def emptyLoop (line : Text) (len : Int) : Nat → Int → Except Fault Bool
  | 0, _ => .error .outOfFuel
  | fuel + 1, idx => do
    let byte ← charAt line idx
    if byte ≠ space ∨ len ≤ idx then return decide (len ≤ idx)
    else emptyLoop line len fuel (intOf (idx + 1))

/-- The two loops that look for a character of a line, with its length as their bound: whether
they find it. -/
def findLoop (wanted : UInt8) (line : Text) (len : Int) : Nat → Int → Except Fault Bool
  | 0, _ => .error .outOfFuel
  | fuel + 1, idx => do
    let byte ← charAt line idx
    if byte = wanted ∨ len ≤ idx then return !decide (len ≤ idx ∧ byte ≠ wanted)
    else findLoop wanted line len fuel (intOf (idx + 1))

/-- `decideLineType`, with every character it reads. -/
def scanLineType (fuel : Nat) (line : Text) : Except Fault (LineType × Text) := do
  let len := intOf line.length
  let emptyLine ← emptyLoop line len fuel 0
  let lst ← charAt line 0
  if lst = SECTB then
    let found ← findLoop SECTB line len fuel 0
    if found then
      let content ← substr line 1 (sizeOfInt (len - 2))
      return (.SECTION, content)
    else return (.ERRLINE, [])
  else if lst = COMTB then return (.COMMENT, [])
  else if emptyLine then return (.ERRLINE, [])
  else
    let found ← findLoop KEYB line len fuel 0
    if found then return (.KEYVAL, line) else return (.ERRLINE, [])

/-- The loop of `loadConfig2Map` that looks for the equals sign, without a bound. -/
def keyLoop (content : Text) : Nat → Int → Except Fault Int
  | 0, _ => .error .outOfFuel
  | fuel + 1, idx => do
    let byte ← charAt content idx
    if byte = KEYB then return idx else keyLoop content fuel (intOf (idx + 1))

/-- One turn of the loop in `loadConfig2Map`, with every character it reads. -/
def Loader.scan (fuel : Nat) (loader : Loader) (line : Text) : Except Fault Loader := do
  match ← scanLineType fuel line with
  | (.SECTION, content) =>
    if loader.is1stSec then return { loader with is1stSec := false, section_ := content }
    else
      return { loader with
        configMap := loader.configMap.insert loader.section_ loader.kvMap
        kvMap := fun _ => none
        section_ := content }
  | (.KEYVAL, content) =>
    let idx ← keyLoop content fuel 0
    let key ← substr content 0 (sizeOfInt idx)
    let value ← substr content (sizeOfInt (intOf (idx + 1))) content.length
    return { loader with kvMap := loader.kvMap.insert key value }
  | (.COMMENT, _) | (.ERRLINE, _) => return loader

/-- `loadConfig2Map`, with every character it reads. -/
def scanConfig (fuel : Nat) (contents : Text) : Except Fault (Map (Map Text)) := do
  let loader ← (getlines contents).foldlM (Loader.scan fuel) .start
  return loader.finish

/-! ### Reading a character -/

theorem charAt_of_drop {line rest : Text} {byte : UInt8} {idx : Nat}
    (here : line.drop idx = byte :: rest) : charAt line idx = .ok byte := by
  have inside : idx < line.length := by
    apply Classical.byContradiction
    intro outside
    rw [List.drop_of_length_le (by omega)] at here
    cases here
  have at_ : (line : List UInt8)[idx]? = some byte := by
    rw [← List.head?_drop, here, List.head?_cons]
  have within : Within (line ++ [0]) idx 1 :=
    Or.inr ⟨by omega, by rw [List.length_append, List.length_singleton]; omega⟩
  rw [charAt, load_of_within within, byteAt, Int.toNat_natCast, List.getD_eq_getElem?_getD,
    List.getElem?_append_left inside, at_, Option.getD_some]

/-- The character behind the last one is a null. -/
theorem charAt_length (line : Text) : charAt line line.length = .ok 0 := by
  have within : Within (line ++ [0]) line.length 1 :=
    Or.inr ⟨by omega, by rw [List.length_append, List.length_singleton]; omega⟩
  rw [charAt, load_of_within within, byteAt, Int.toNat_natCast, List.getD_eq_getElem?_getD,
    List.getElem?_append_right (Nat.le_refl _), Nat.sub_self]
  rfl

/-- What comes behind a character of a short line. -/
theorem next_of_drop {line rest : Text} {byte : UInt8} {idx : Nat} (short : line.length < 2 ^ 31)
    (here : line.drop idx = byte :: rest) :
    idx < line.length ∧ intOf ((idx : Int) + 1) = (idx + 1 : Nat) ∧ line.drop (idx + 1) = rest := by
  have inside : idx + (rest.length + 1) = line.length := by
    have length := congrArg List.length here
    rw [List.length_drop, List.length_cons] at length
    omega
  refine ⟨by omega, intOf_of_lt (by omega) (by omega), ?_⟩
  rw [← List.drop_drop, here, List.drop_one, List.tail_cons]

/-! ### The loops -/

theorem emptyLoop_eq {line : Text} (short : line.length < 2 ^ 31) {rest : Text} {idx fuel : Nat}
    (here : line.drop idx = rest) (inside : idx ≤ line.length) (enough : rest.length < fuel) :
    emptyLoop line line.length fuel idx = .ok (emptyFrom line.length rest idx) := by
  induction rest generalizing idx fuel with
  | nil =>
    have atEnd : line.length ≤ idx := List.drop_eq_nil_iff.mp here
    obtain rfl : idx = line.length := by omega
    obtain ⟨fuel, rfl⟩ := Nat.exists_eq_succ_of_ne_zero (Nat.ne_of_gt enough)
    rw [emptyLoop, charAt_length, ok_bind, if_pos (Or.inr (Int.le_refl _)), emptyFrom]
    rfl
  | cons byte rest hypothesis =>
    obtain ⟨below, next, dropped⟩ := next_of_drop short here
    obtain ⟨fuel, rfl⟩ := Nat.exists_eq_succ_of_ne_zero (by omega : fuel ≠ 0)
    rw [List.length_cons] at enough
    rw [emptyLoop, charAt_of_drop here, ok_bind, emptyFrom, next]
    by_cases stops : byte ≠ space ∨ (line.length : Int) ≤ idx
    · rw [if_pos stops, if_pos stops]
      rfl
    · rw [if_neg stops, if_neg stops]
      exact hypothesis dropped below (by omega)

/-- Whether the character is found, in terms of the rest of the line. -/
theorem findLoop_eq {wanted : UInt8} (noNull : wanted ≠ 0) {line : Text}
    (short : line.length < 2 ^ 31) {rest : Text} {idx fuel : Nat} (here : line.drop idx = rest)
    (inside : idx ≤ line.length) (enough : rest.length < fuel) :
    findLoop wanted line line.length fuel idx = .ok (decide (wanted ∈ rest)) := by
  induction rest generalizing idx fuel with
  | nil =>
    have atEnd : line.length ≤ idx := List.drop_eq_nil_iff.mp here
    obtain rfl : idx = line.length := by omega
    obtain ⟨fuel, rfl⟩ := Nat.exists_eq_succ_of_ne_zero (Nat.ne_of_gt enough)
    rw [findLoop, charAt_length, ok_bind, if_pos (Or.inr (Int.le_refl _)),
      decide_eq_true ⟨Int.le_refl _, noNull.symm⟩, decide_eq_false (List.not_mem_nil)]
    rfl
  | cons byte rest hypothesis =>
    obtain ⟨below, next, dropped⟩ := next_of_drop short here
    obtain ⟨fuel, rfl⟩ := Nat.exists_eq_succ_of_ne_zero (by omega : fuel ≠ 0)
    rw [List.length_cons] at enough
    rw [findLoop, charAt_of_drop here, ok_bind, next]
    by_cases found : byte = wanted
    · rw [if_pos (Or.inl found), decide_eq_false fun both => both.2 found,
        decide_eq_true (found ▸ List.mem_cons_self)]
      rfl
    · have goesOn : ¬ (byte = wanted ∨ (line.length : Int) ≤ idx) :=
        not_or.mpr ⟨found, by omega⟩
      rw [if_neg goesOn, @hypothesis (idx + 1) fuel dropped below (by omega)]
      have later : wanted ∈ byte :: rest ↔ wanted ∈ rest := by
        rw [List.mem_cons, or_iff_right fun same => found same.symm]
      rw [decide_eq_decide.mpr later]

/-- The loop on texts that looks for an equals sign finds one if there is one. -/
theorem keyFrom_eq {line rest : Text} {idx : Nat} (here : line.drop idx = rest) :
    keyFrom line.length rest idx = decide (KEYB ∈ rest) := by
  induction rest generalizing idx with
  | nil => rfl
  | cons byte rest hypothesis =>
    have below : idx < line.length := by
      have length := congrArg List.length here
      rw [List.length_drop, List.length_cons] at length
      omega
    have dropped : line.drop (idx + 1) = rest := by
      rw [← List.drop_drop, here, List.drop_one, List.tail_cons]
    rw [keyFrom]
    by_cases found : byte = KEYB
    · rw [if_pos found, decide_eq_true (found ▸ List.mem_cons_self)]
    · have goesOn : ¬ (line.length : Int) ≤ idx := by omega
      rw [if_neg found, if_neg goesOn, hypothesis dropped]
      have later : KEYB ∈ byte :: rest ↔ KEYB ∈ rest := by
        rw [List.mem_cons, or_iff_right fun same => found same.symm]
      rw [decide_eq_decide.mpr later]

/-- The loop without a bound stops at the first equals sign, which is below the length. -/
theorem keyLoop_eq {content : Text} (short : content.length < 2 ^ 31) {rest : Text}
    {idx fuel : Nat} (here : content.drop idx = rest) (key : KEYB ∈ rest)
    (enough : rest.length ≤ fuel) :
    keyLoop content fuel idx = .ok (idx + (keyOf rest).length : Nat) ∧
      idx + (keyOf rest).length < content.length := by
  induction rest generalizing idx fuel with
  | nil => exact absurd key List.not_mem_nil
  | cons byte rest hypothesis =>
    obtain ⟨below, next, dropped⟩ := next_of_drop short here
    rw [List.length_cons] at enough
    obtain ⟨fuel, rfl⟩ := Nat.exists_eq_succ_of_ne_zero (by omega : fuel ≠ 0)
    rw [keyLoop, charAt_of_drop here, ok_bind, next]
    by_cases found : byte = KEYB
    · rw [if_pos found, keyOf, List.takeWhile_cons_of_neg (by simp [found])]
      exact ⟨rfl, below⟩
    · have later : KEYB ∈ rest := by
        rcases List.mem_cons.mp key with same | member
        · exact absurd same.symm found
        · exact member
      obtain ⟨stops, inside⟩ := @hypothesis (idx + 1) fuel dropped later (by omega)
      have longer : (keyOf (byte :: rest)).length = (keyOf rest).length + 1 := by
        rw [keyOf, List.takeWhile_cons_of_pos (by simp [found]), List.length_cons]
        rfl
      rw [if_neg found, stops, longer]
      exact ⟨by rw [Nat.add_right_comm, Nat.add_assoc], by omega⟩

/-! ### The functions -/

theorem charAt_zero (line : Text) : charAt line 0 = .ok (line.headD 0) := by
  cases line with
  | nil => exact charAt_length []
  | cons byte rest => exact @charAt_of_drop (byte :: rest) rest byte 0 rfl

/-- On a short line `decideLineType` reads no character behind the null, and ends. -/
theorem scanLineType_eq {line : Text} (short : line.length < 2 ^ 31) {fuel : Nat}
    (enough : line.length < fuel) : scanLineType fuel line = .ok (decideLineType line) := by
  have length : intOf line.length = line.length := intOf_of_lt (by omega) (by omega)
  have dropped : line.drop 0 = line := List.drop_zero
  have empty := emptyLoop_eq short dropped (Nat.zero_le _) enough
  have first := @findLoop_eq SECTB (by decide) _ short _ 0 _ dropped (Nat.zero_le _) enough
  have key := @findLoop_eq KEYB (by decide) _ short _ 0 _ dropped (Nat.zero_le _) enough
  have same := keyFrom_eq dropped
  rw [Int.natCast_zero] at empty first key
  unfold scanLineType decideLineType
  simp only [length, empty, first, key, same, charAt_zero, ok_bind]
  by_cases isSection : line.headD 0 = SECTB
  · have nonempty : line ≠ [] := by
      rintro rfl
      exact absurd isSection (by decide)
    have member : SECTB ∈ line := by
      rw [← isSection, List.headD_eq_head?_getD, List.head?_eq_some_head nonempty,
        Option.getD_some]
      exact List.head_mem nonempty
    have begins : 1 ≤ line.length := List.length_pos_iff.mpr nonempty
    rw [if_pos isSection, if_pos isSection, if_pos (decide_eq_true member), substr, if_pos begins]
    rfl
  · rw [if_neg isSection, if_neg isSection]
    by_cases isComment : line.headD 0 = COMTB
    · rw [if_pos isComment, if_pos isComment]
      rfl
    · rw [if_neg isComment, if_neg isComment]
      split
      · rfl
      · split
        · rfl
        · rfl

/-- What `decideLineType` takes for a key has an equals sign, and is the whole line. -/
theorem key_of_decideLineType {line content : Text} (short : line.length < 2 ^ 31)
    (decided : decideLineType line = (.KEYVAL, content)) : content = line ∧ KEYB ∈ line := by
  have length : intOf line.length = line.length := intOf_of_lt (by omega) (by omega)
  unfold decideLineType at decided
  simp only [length, keyFrom_eq (List.drop_zero : line.drop 0 = line)] at decided
  split at decided
  · cases decided
  · split at decided
    · cases decided
    · split at decided
      · cases decided
      · split at decided
        · rename_i member
          cases decided
          exact ⟨rfl, of_decide_eq_true member⟩
        · cases decided

/-- Where the first equals sign stands, the key ends and the value begins. -/
theorem split_at_key {content : Text} (key : KEYB ∈ content) :
    content[(keyOf content).length]? = some KEYB ∧
      content.take (keyOf content).length = keyOf content ∧
      content.drop ((keyOf content).length + 1) = valueOf content := by
  induction content with
  | nil => exact absurd key List.not_mem_nil
  | cons byte rest hypothesis =>
    unfold keyOf valueOf at hypothesis ⊢
    by_cases found : byte = KEYB
    · rw [List.takeWhile_cons_of_neg (by simp [found]),
        List.dropWhile_cons_of_neg (by simp [found])]
      exact ⟨congrArg some found, rfl, rfl⟩
    · have later : KEYB ∈ rest := by
        rcases List.mem_cons.mp key with same | member
        · exact absurd same.symm found
        · exact member
      obtain ⟨here, before, behind⟩ := hypothesis later
      rw [List.takeWhile_cons_of_pos (by simp [found]),
        List.dropWhile_cons_of_pos (by simp [found]), List.length_cons, List.getElem?_cons_succ,
        List.take_succ_cons, List.drop_succ_cons]
      exact ⟨here, by rw [before], behind⟩

/-- The search for the equals sign of a key finds the first one, below the length. -/
theorem keyLoop_of_key {content : Text} (short : content.length < 2 ^ 31) (key : KEYB ∈ content)
    {fuel : Nat} (enough : content.length ≤ fuel) :
    keyLoop content fuel 0 = .ok (keyOf content).length ∧
      (keyOf content).length < content.length := by
  have found := @keyLoop_eq content short content 0 fuel List.drop_zero key enough
  rw [Nat.zero_add, Int.natCast_zero] at found
  exact found

theorem sizeOfInt_natCast {value : Nat} (small : value < 2 ^ 64) :
    sizeOfInt (value : Int) = value := by
  unfold sizeOfInt
  omega

/-- One turn of the loop over the lines stays inside a short line and does what the turn on texts
does. -/
theorem scan_eq (loader : Loader) {line : Text} (short : line.length < 2 ^ 31) {fuel : Nat}
    (enough : line.length < fuel) : loader.scan fuel line = .ok (loader.line line) := by
  unfold Loader.scan Loader.line
  rw [scanLineType_eq short enough, ok_bind]
  rcases decided : decideLineType line with ⟨type, content⟩
  cases type with
  | SECTION =>
    dsimp only
    split
    · rfl
    · rfl
  | COMMENT => rfl
  | ERRLINE => rfl
  | KEYVAL =>
    obtain ⟨rfl, key⟩ := key_of_decideLineType short decided
    obtain ⟨found, below⟩ := keyLoop_of_key short key (Nat.le_of_lt enough)
    obtain ⟨-, before, behind⟩ := split_at_key key
    have next : intOf (((keyOf content).length : Int) + 1) = ((keyOf content).length + 1 : Nat) :=
      intOf_of_lt (by omega) (by omega)
    have shorter : (valueOf content).length ≤ content.length := by
      rw [← behind, List.length_drop]
      omega
    dsimp only
    rw [found, ok_bind, next, sizeOfInt_natCast (by omega), sizeOfInt_natCast (by omega), substr,
      if_pos (Nat.zero_le _), ok_bind, substr, if_pos (Nat.succ_le_of_lt below), ok_bind,
      List.drop_zero, before, behind, List.take_of_length_le shorter]
    rfl

theorem foldlM_scan_eq {lines : List Text} {fuel : Nat} (loader : Loader)
    (bounded : ∀ line ∈ lines, line.length < 2 ^ 31 ∧ line.length < fuel) :
    lines.foldlM (Loader.scan fuel) loader = .ok (lines.foldl Loader.line loader) := by
  induction lines generalizing loader with
  | nil => rfl
  | cons line rest hypothesis =>
    obtain ⟨short, enough⟩ := bounded line List.mem_cons_self
    rw [List.foldlM_cons, List.foldl_cons, scan_eq loader short enough, ok_bind]
    exact hypothesis _ fun other member => bounded other (List.mem_cons_of_mem line member)

/-- On every line of a file that is shorter than 2^31, the loops read no character behind the null
and end within as many turns as the line has characters, and one more. The search for the equals
sign of a key finds the first one, below the length of what it was given. The same holds of the
whole file when all its lines are that short. -/
theorem scan_in_bounds (contents : Text) (fuel : Nat) :
    (∀ line ∈ getlines contents, line.length < 2 ^ 31 → line.length < fuel →
      scanLineType fuel line = .ok (decideLineType line) ∧
      (∀ content, decideLineType line = (.KEYVAL, content) →
        ∃ idx : Nat, keyLoop content fuel 0 = .ok idx ∧ idx < content.length ∧
          content[idx]? = some KEYB ∧ KEYB ∉ content.take idx) ∧
      ∀ loader : Loader, loader.scan fuel line = .ok (loader.line line)) ∧
    ((∀ line ∈ getlines contents, line.length < 2 ^ 31 ∧ line.length < fuel) →
      scanConfig fuel contents = .ok (loadConfig2Map contents)) := by
  constructor
  · intro line _ short enough
    refine ⟨scanLineType_eq short enough, ?_, fun loader => scan_eq loader short enough⟩
    intro content decided
    obtain ⟨rfl, key⟩ := key_of_decideLineType short decided
    obtain ⟨found, below⟩ := keyLoop_of_key short key (Nat.le_of_lt enough)
    obtain ⟨here, before, -⟩ := split_at_key key
    refine ⟨_, found, below, here, ?_⟩
    rw [before]
    intro member
    have other := List.all_eq_true.mp List.all_takeWhile KEYB member
    exact absurd rfl (of_decide_eq_true other)
  · intro bounded
    rw [scanConfig, foldlM_scan_eq .start bounded]
    rfl

/-- A file with a key, a section, an empty line and a line of blanks. -/
theorem scan_in_bounds_lines :
    scanConfig 8 [97, 61, 98, 10, 91, 115, 93, 10, 10, 32, 32, 10, 61, 0, 10] =
      .ok (loadConfig2Map [97, 61, 98, 10, 91, 115, 93, 10, 10, 32, 32, 10, 61, 0, 10]) ∧
    scanLineType 8 [97, 61, 98] = .ok (.KEYVAL, [97, 61, 98]) :=
  ⟨(scan_in_bounds _ 8).2 (by decide), ((scan_in_bounds [97, 61, 98] 8).1 [97, 61, 98] (by decide)
    (by decide) (by decide)).1⟩

end ConfigParser

end Nattan
