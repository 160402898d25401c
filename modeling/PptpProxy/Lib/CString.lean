/-
  C strings over byte lists: the part of `<string.h>`, `<stdlib.h>` and `<stdio.h>` a text
  protocol parser written in C leans on.

  A buffer is a `List UInt8`; a C string is the part of it in front of the first NUL (`cstr`).
  Pointers into a string are byte offsets, and a NULL result is `none`.  Every function here is
  structurally recursive or a fold, so it reduces in the kernel and a test is a `decide`.

  What the proofs use of it:

  * `strstr` (here `findSub`, over any alphabet) — the hit splits the text around the pattern
    (`findSub_split`), is stable under growth of the text (`findSub_append`), and is the FIRST hit
    (`findSub_le_of_split`);
  * `strtok_r` — one step takes one maximal delimiter-free block (`strtokR_block`), so a text of
    lines or fields comes apart into them (`strtokAll_lines`, `strtokAll_fields`);
  * `%Ns` — one conversion reads one word (`scanToken_word`), or as much of one as its width allows
    (`scanToken_words`);
  * `strtol` / `%d` — decimal print and parse are inverse (`digitsVal_decimal`,
    `strtol_digits`), and what `strtol` reads to its end is a sign and digits (`strtolExact_whole`).
-/
import Mathlib.Data.Bool.AllAny
import Mathlib.Data.List.DropRight
import Mathlib.Data.List.TakeWhile
import Mathlib.Data.Nat.Digits.Lemmas

namespace CLib

/-- A buffer's bytes. -/
abbrev Bytes := List UInt8

/-- The bytes of a C string literal (ASCII). -/
def ascii (s : String) : Bytes := s.toList.map fun c => UInt8.ofNat c.toNat

/-- The C string a buffer holds: everything in front of its first NUL. -/
def cstr (b : Bytes) : Bytes := b.takeWhile (· != 0)

theorem cstr_isPrefix (b : Bytes) : cstr b <+: b := List.takeWhile_prefix _

theorem cstr_eq_self {b : Bytes} (h : ∀ x ∈ b, x ≠ 0) : cstr b = b :=
  List.takeWhile_eq_self_iff.mpr fun x hx => by simp [h x hx]

theorem ne_zero_of_mem_cstr {b : Bytes} {x : UInt8} (h : x ∈ cstr b) : x ≠ 0 := by
  have := List.mem_takeWhile_imp h
  simpa using this

/-- A NUL-free prefix of the buffer is inside the C string. -/
theorem cstr_append {b t : Bytes} (h : ∀ x ∈ b, x ≠ 0) : cstr (b ++ t) = b ++ cstr t :=
  List.takeWhile_append_of_pos fun x hx => by simp [h x hx]

/-! ## `strstr`: the first occurrence of a pattern -/

section FindSub

variable {α : Type} [DecidableEq α]

/-- Offset of the first occurrence of `pat` in the text (`strstr`). -/
def findSub (pat : List α) : List α → Option Nat
  | [] => if pat = [] then some 0 else none
  | x :: xs => if pat <+: x :: xs then some 0 else (findSub pat xs).map (· + 1)

/-- A hit splits the text around the pattern. -/
theorem findSub_split {pat : List α} : ∀ {s : List α} {k : Nat}, findSub pat s = some k →
    s = s.take k ++ pat ++ s.drop (k + pat.length) ∧ k + pat.length ≤ s.length := by
  intro s
  induction s with
  | nil =>
    intro k h
    unfold findSub at h
    split at h
    · rename_i hp
      subst hp
      obtain rfl : 0 = k := Option.some.inj h
      exact ⟨rfl, Nat.le_refl _⟩
    · cases h
  | cons x xs ih =>
    intro k h
    unfold findSub at h
    split at h
    · rename_i hp
      obtain rfl : 0 = k := Option.some.inj h
      obtain ⟨t, ht⟩ := hp
      rw [← ht]
      simp
    · obtain ⟨k', hk', rfl⟩ := Option.map_eq_some_iff.mp h
      obtain ⟨h1, h2⟩ := ih hk'
      refine ⟨?_, by simp only [List.length_cons]; omega⟩
      rw [show k' + 1 + pat.length = (k' + pat.length) + 1 from by omega, List.take_succ_cons,
        List.drop_succ_cons, List.cons_append, List.cons_append, ← h1]

/-- No occurrence starts in front of the hit. -/
theorem findSub_le_of_split {pat : List α} : ∀ {s a b : List α}, s = a ++ pat ++ b →
    ∃ k, findSub pat s = some k ∧ k ≤ a.length := by
  intro s
  induction s with
  | nil =>
    intro a b h
    have hp : pat = [] := by
      have := congrArg List.length h
      simp only [List.length_nil, List.length_append] at this
      exact List.length_eq_zero_iff.mp (by omega)
    exact ⟨0, by simp [findSub, hp], Nat.zero_le _⟩
  | cons x xs ih =>
    intro a b h
    unfold findSub
    by_cases hp : pat <+: x :: xs
    · exact ⟨0, if_pos hp, Nat.zero_le _⟩
    · rw [if_neg hp]
      cases a with
      | nil =>
        exact absurd ⟨b, by rw [h]; rfl⟩ hp
      | cons y a' =>
        have hxs : xs = a' ++ pat ++ b := by
          have := congrArg List.tail h
          simpa using this
        obtain ⟨k, hk, hle⟩ := ih hxs
        exact ⟨k + 1, by rw [hk]; rfl, by simp only [List.length_cons]; omega⟩

/-- A hit stays where it is when the text grows at the end. -/
theorem findSub_append {pat s : List α} {k : Nat} (t : List α) (h : findSub pat s = some k) :
    findSub pat (s ++ t) = some k := by
  induction s generalizing k with
  | nil =>
    unfold findSub at h
    split at h
    · rename_i hp
      obtain rfl : 0 = k := Option.some.inj h
      subst hp
      cases t <;> simp [findSub]
    · cases h
  | cons x xs ih =>
    unfold findSub at h
    rw [List.cons_append]
    unfold findSub
    split at h
    · rename_i hp
      obtain rfl : 0 = k := Option.some.inj h
      rw [if_pos (hp.trans ⟨t, by simp⟩)]
    · rename_i hp
      obtain ⟨k', hk', rfl⟩ := Option.map_eq_some_iff.mp h
      have hlen := (findSub_split hk').2
      have hp' : ¬ pat <+: x :: (xs ++ t) := by
        intro hc
        apply hp
        refine List.prefix_of_prefix_length_le hc ⟨t, by simp⟩ ?_
        simp only [List.length_cons]
        omega
      rw [if_neg hp', ih hk']
      rfl

/-- A hit in a prefix is THE hit of the whole text. -/
theorem findSub_of_isPrefix {pat s u : List α} {k : Nat} (hs : s <+: u)
    (h : findSub pat s = some k) : findSub pat u = some k := by
  obtain ⟨t, rfl⟩ := hs
  exact findSub_append t h

/-- ... and a hit of the whole text whose end is still inside the prefix is found there. -/
theorem findSub_take {pat s : List α} {k n : Nat} (h : findSub pat s = some k)
    (hn : k + pat.length ≤ n) : findSub pat (s.take n) = some k := by
  obtain ⟨hs, hlen⟩ := findSub_split h
  have hsplit : s.take n = s.take k ++ pat ++ (s.take n).drop (k + pat.length) := by
    have h1 : (s.take n).take (k + pat.length) = s.take k ++ pat := by
      rw [List.take_take, Nat.min_eq_left hn]
      conv => lhs; rw [hs]
      rw [List.take_append_of_le_length (by simp; omega), List.take_of_length_le (by simp)]
    conv => lhs; rw [← List.take_append_drop (k + pat.length) (s.take n), h1]
  obtain ⟨k', hk', _⟩ := findSub_le_of_split hsplit
  have := findSub_of_isPrefix (List.take_prefix n s) hk'
  rw [h] at this
  rw [hk', this]

/-- A pattern whose first letter does not stand in front of an occurrence has its first hit there. -/
theorem findSub_of_not_mem {x : α} {p a : List α} (b : List α) (h : x ∉ a) :
    findSub (x :: p) (a ++ x :: p ++ b) = some a.length := by
  induction a with
  | nil =>
    show findSub (x :: p) (x :: (p ++ b)) = some 0
    unfold findSub
    exact if_pos ⟨b, rfl⟩
  | cons y a ih =>
    have hne : ¬ (x :: p) <+: y :: (a ++ x :: p ++ b) := by
      intro hp
      obtain ⟨hxy, -⟩ := List.cons_prefix_cons.mp hp
      exact h (hxy ▸ List.mem_cons_self)
    show findSub (x :: p) (y :: (a ++ x :: p ++ b)) = some (a.length + 1)
    unfold findSub
    rw [if_neg hne, ih fun hx => h (List.mem_cons_of_mem y hx)]
    rfl

end FindSub

/-- `strstr(s, pat)` on C strings. -/
def strstr (s pat : Bytes) : Option Nat := findSub pat s

/-- `strchr(s, c)` for a `c` other than NUL. -/
def strchr (s : Bytes) (c : UInt8) : Option Nat := s.findIdx? (· == c)

/-- `strrchr(s, c)` for a `c` other than NUL: the LAST occurrence. -/
def strrchr : Bytes → UInt8 → Option Nat
  | [], _ => none
  | x :: xs, c =>
    match strrchr xs c with
    | some k => some (k + 1)
    | none => if x = c then some 0 else none

/-- `strpbrk(s, set)`: the first byte that is in the set. -/
def strpbrk (s set : Bytes) : Option Nat := s.findIdx? (set.contains ·)

/-- `strcspn(s, set)`: how many bytes there are in front of the first one in the set. -/
def strcspn (s set : Bytes) : Nat := (s.takeWhile (! set.contains ·)).length

theorem strchr_isSome {s : Bytes} {c : UInt8} : (strchr s c).isSome = true ↔ c ∈ s := by
  simp [strchr]

/-- The first occurrence. -/
theorem strchr_append {a b : Bytes} {c : UInt8} (h : c ∉ a) :
    strchr (a ++ c :: b) c = some a.length := by
  have hnone : a.findIdx? (· == c) = none := by
    rw [List.findIdx?_eq_none_iff]
    intro x hx
    rw [beq_eq_false_iff_ne]
    rintro rfl
    exact h hx
  unfold strchr
  rw [List.findIdx?_append, hnone, List.findIdx?_cons]
  simp

theorem strrchr_eq_none {s : Bytes} {c : UInt8} (h : c ∉ s) : strrchr s c = none := by
  induction s with
  | nil => rfl
  | cons x s ih =>
    unfold strrchr
    rw [ih fun hc => h (List.mem_cons_of_mem x hc)]
    refine if_neg ?_
    rintro rfl
    exact h List.mem_cons_self

/-- The last occurrence. -/
theorem strrchr_append {a b : Bytes} {c : UInt8} (h : c ∉ b) :
    strrchr (a ++ c :: b) c = some a.length := by
  induction a with
  | nil =>
    show strrchr (c :: b) c = some 0
    unfold strrchr
    rw [strrchr_eq_none h]
    exact if_pos rfl
  | cons x a ih =>
    show strrchr (x :: (a ++ c :: b)) c = some (a.length + 1)
    unfold strrchr
    rw [ih]

theorem not_mem_of_strrchr {s : Bytes} {c : UInt8} (h : strrchr s c = none) : c ∉ s := by
  induction s with
  | nil => exact List.not_mem_nil
  | cons x s ih =>
    unfold strrchr at h
    split at h
    · cases h
    · rename_i hnone
      split at h
      · cases h
      · rename_i hx
        intro hmem
        rcases List.mem_cons.mp hmem with rfl | hmem
        · exact hx rfl
        · exact ih hnone hmem

/-- The hit is the last one. -/
theorem strrchr_split {s : Bytes} {c : UInt8} {k : Nat} (h : strrchr s c = some k) :
    s = s.take k ++ c :: s.drop (k + 1) ∧ c ∉ s.drop (k + 1) := by
  have hmem : c ∈ s.reverse := by
    rw [List.mem_reverse]
    by_contra hno
    rw [strrchr_eq_none hno] at h
    cases h
  obtain ⟨b, a, hsplit, hb⟩ := List.eq_append_cons_of_mem hmem
  have hs : s = a.reverse ++ c :: b.reverse := by
    have := congrArg List.reverse hsplit
    simpa using this
  have hlast : c ∉ b.reverse := fun hin => hb (List.mem_reverse.mp hin)
  obtain rfl : a.reverse.length = k := by
    rw [hs, strrchr_append hlast] at h
    exact Option.some.inj h
  have htake : s.take a.reverse.length = a.reverse := by
    rw [hs, List.take_left]
  have hdrop : s.drop (a.reverse.length + 1) = b.reverse := by
    rw [hs, ← List.drop_drop, List.drop_left]
    rfl
  rw [htake, hdrop]
  exact ⟨hs, hlast⟩

theorem strrchr_lt {s : Bytes} {c : UInt8} {k : Nat} (h : strrchr s c = some k) : k < s.length := by
  have hlen := congrArg List.length (strrchr_split h).1
  rw [List.length_append, List.length_cons, List.length_take, List.length_drop] at hlen
  omega

theorem strpbrk_append {a b set : Bytes} {y : UInt8} (h : ∀ x ∈ a, x ∉ set) (hy : y ∈ set) :
    strpbrk (a ++ y :: b) set = some a.length := by
  have hnone : a.findIdx? (set.contains ·) = none := by
    rw [List.findIdx?_eq_none_iff]
    intro x hx
    simpa using h x hx
  unfold strpbrk
  rw [List.findIdx?_append, hnone, List.findIdx?_cons]
  simp [hy]

/-- What `fgets(buffer, size, input)` stores in front of its NUL: a line with its newline, or as much of it
    as there is room for.  `none` is the NULL at the end of the input. -/
def fgets (size : Nat) (input : Bytes) : Option Bytes :=
  if input = [] then none
  else
    let line := input.takeWhile (· != 10)
    some ((if line = input then line else line ++ [10]).take (size - 1))

/-! ## Character classes (the "C" locale) -/

/-- `isspace`: space, `\t`, `\n`, `\v`, `\f`, `\r`. -/
def isspace (b : UInt8) : Bool := b == 32 || (9 ≤ b && b ≤ 13)

/-- `isdigit`. -/
def isdigit (b : UInt8) : Bool := 48 ≤ b && b ≤ 57

theorem isdigit_iff {b : UInt8} : isdigit b = true ↔ 48 ≤ b.toNat ∧ b.toNat ≤ 57 := by
  unfold isdigit
  rw [Bool.and_eq_true, decide_eq_true_iff, decide_eq_true_iff, UInt8.le_iff_toNat_le,
    UInt8.le_iff_toNat_le]
  rfl

theorem isspace_of_isdigit {b : UInt8} (h : isdigit b = true) : isspace b = false := by
  obtain ⟨h1, h2⟩ := isdigit_iff.mp h
  have h32 : b ≠ 32 := by
    rintro rfl
    exact absurd h1 (by decide)
  have h13 : ¬ b ≤ 13 := by
    intro hle
    have : b.toNat ≤ 13 := UInt8.le_iff_toNat_le.mp hle
    omega
  simp [isspace, h32, h13]

/-! ## `%Ns` of `sscanf` -/

/-- One `%<width>s` conversion: skip white space, take at most `width` non-space bytes.
    `none` is the input failure at the end of the string. -/
def scanToken (width : Nat) (s : Bytes) : Option (Bytes × Bytes) :=
  let s := s.dropWhile isspace
  if s = [] then none
  else
    let tok := (s.takeWhile (! isspace ·)).take width
    some (tok, s.drop tok.length)

/-- Blanks in front of a token do not matter. -/
theorem scanToken_space (width : Nat) (s : Bytes) : scanToken width (32 :: s) = scanToken width s := by
  unfold scanToken
  rw [List.dropWhile_cons_of_pos (by decide)]

/-- One conversion reads a word, as far as the width allows, and leaves the rest. -/
theorem scanToken_word {w rest : Bytes} (width : Nat) (hw : w ≠ [])
    (hns : ∀ b ∈ w, isspace b = false) (hrest : ∀ b, rest.head? = some b → isspace b = true) :
    scanToken width (w ++ rest) = some (w.take width, w.drop width ++ rest) := by
  have hskip : (w ++ rest).dropWhile isspace = w ++ rest := by
    cases w with
    | nil => exact absurd rfl hw
    | cons x w => exact List.dropWhile_cons_of_neg (by simp [hns x List.mem_cons_self])
  have hrestnil : rest.takeWhile (! isspace ·) = [] := by
    cases rest with
    | nil => rfl
    | cons y rest => exact List.takeWhile_cons_of_neg (by simp [hrest y rfl])
  have htake : (w ++ rest).takeWhile (! isspace ·) = w := by
    rw [List.takeWhile_append_of_pos fun b hb => by simp [hns b hb], hrestnil, List.append_nil]
  unfold scanToken
  simp only [hskip, htake]
  rw [if_neg (by simp [hw])]
  congr 2
  rw [List.length_take]
  by_cases hlen : width ≤ w.length
  · rw [Nat.min_eq_left hlen, List.drop_append_of_le_length hlen]
  · rw [Nat.min_eq_right (by omega), List.drop_append_of_le_length (Nat.le_refl _),
      List.drop_length, List.drop_of_length_le (by omega)]

/-! ### Words -/

/-- The words of a text: its maximal blocks without white space. -/
def words (s : Bytes) : List Bytes := (s.splitOnP isspace).filter (! ·.isEmpty)

/-- White space in front of a text does not matter. -/
theorem words_space {b : UInt8} (hb : isspace b = true) (s : Bytes) : words (b :: s) = words s := by
  unfold words
  rw [List.splitOnP_cons_eq_if_modifyHead, if_pos hb]
  rfl

theorem words_dropWhile (s : Bytes) : words (s.dropWhile isspace) = words s := by
  induction s with
  | nil => rfl
  | cons b s ih =>
    cases hb : isspace b with
    | true => rw [List.dropWhile_cons_of_pos hb, ih, words_space hb]
    | false => rw [List.dropWhile_cons_of_neg (by simp [hb])]

section

variable {w rest : Bytes}

/-- A block in front of white space, or of nothing, is the first word. -/
theorem words_word (hw : w ≠ []) (hns : ∀ b ∈ w, isspace b = false)
    (hrest : ∀ b, rest.head? = some b → isspace b = true) : words (w ++ rest) = w :: words rest := by
  cases rest with
  | nil =>
    unfold words
    rw [List.append_nil, List.splitOnP_eq_singleton hns, List.filter_cons_of_pos (by simpa using hw)]
    rfl
  | cons b rest =>
    have hb := hrest b rfl
    rw [words_space hb]
    unfold words
    rw [List.splitOnP_append_cons_of_forall_mem hns b hb,
      List.filter_cons_of_pos (by simpa using hw)]

/-- What is left when a conversion has taken at most `width` bytes of a word. -/
theorem words_spill (width : Nat) (hns : ∀ b ∈ w, isspace b = false)
    (hrest : ∀ b, rest.head? = some b → isspace b = true) :
    words (w.drop width ++ rest) =
      if w.length ≤ width then words rest else w.drop width :: words rest := by
  split
  · rename_i hle
    rw [List.drop_of_length_le hle, List.nil_append]
  · rename_i hlt
    refine words_word ?_ (fun b hb => hns b (List.mem_of_mem_drop hb)) hrest
    intro hnil
    exact hlt (List.drop_eq_nil_iff.mp hnil)

end

/-- A text is blank, or begins with its first word when the white space in front is skipped. -/
theorem words_split (s : Bytes) :
    (s.dropWhile isspace = [] ∧ words s = []) ∨
    ∃ w rest, s.dropWhile isspace = w ++ rest ∧ words s = w :: words rest ∧ w ≠ [] ∧
      (∀ b ∈ w, isspace b = false) ∧ ∀ b, rest.head? = some b → isspace b = true := by
  rw [← words_dropWhile s]
  cases hs : s.dropWhile isspace with
  | nil => exact Or.inl ⟨rfl, rfl⟩
  | cons x t =>
    right
    have hx : isspace x = false := by
      have := List.head?_dropWhile_not isspace s
      rw [hs] at this
      simpa using this
    -- the word ends in front of the next blank
    have hcut : (x :: t).takeWhile (! isspace ·) ++ (x :: t).dropWhile (! isspace ·) = x :: t :=
      List.takeWhile_append_dropWhile
    have hw : (x :: t).takeWhile (! isspace ·) ≠ [] := by
      rw [List.takeWhile_cons_of_pos (by simp [hx])]
      exact List.cons_ne_nil _ _
    have hns : ∀ b ∈ (x :: t).takeWhile (! isspace ·), isspace b = false := by
      intro b hb
      simpa using List.mem_takeWhile_imp hb
    have hrest : ∀ b, ((x :: t).dropWhile (! isspace ·)).head? = some b → isspace b = true := by
      intro b hb
      have := List.head?_dropWhile_not (! isspace ·) (x :: t)
      rw [hb] at this
      simpa using this
    refine ⟨_, _, hcut.symm, ?_, hw, hns, hrest⟩
    conv => lhs; rw [← hcut]
    exact words_word hw hns hrest

/-- The words of a text and one blank between any two of them fit the text. -/
theorem words_sum (s : Bytes) : ((words s).map fun w => w.length + 1).sum ≤ s.length + 1 := by
  induction h : s.length using Nat.strong_induction_on generalizing s with
  | _ n ih =>
    subst h
    have hskip := (List.dropWhile_suffix isspace (l := s)).length_le
    rcases words_split s with ⟨-, hnil⟩ | ⟨w, rest, hs, hws, hne, -, hrest⟩
    · rw [hnil]
      exact Nat.zero_le _
    · have hpos : 0 < w.length := List.length_pos_iff.mpr hne
      rw [hs, List.length_append] at hskip
      rw [hws, List.map_cons, List.sum_cons]
      cases rest with
      | nil =>
        rw [show words [] = [] from rfl, List.map_nil, List.sum_nil]
        omega
      | cons b rest =>
        rw [List.length_cons] at hskip
        rw [words_space (hrest b rfl)]
        have := ih rest.length (by omega) rest rfl
        omega

theorem words_length {s w : Bytes} {ws : List Bytes} (h : words s = w :: ws) :
    w.length ≤ s.length := by
  have hsum := words_sum s
  rw [h, List.map_cons, List.sum_cons] at hsum
  omega

/-- One conversion takes the first word, or as much of it as the width allows: then the NEXT conversion
    goes on in the middle of the word. -/
theorem scanToken_words (width : Nat) (s : Bytes) :
    (words s = [] ∧ scanToken width s = none) ∨
    ∃ w ws rest, words s = w :: ws ∧ w ≠ [] ∧ scanToken width s = some (w.take width, rest) ∧
      words rest = (if w.length ≤ width then ws else w.drop width :: ws) ∧
      (w.take width).length + rest.length ≤ s.length := by
  have hskip : scanToken width (s.dropWhile isspace) = scanToken width s := by
    unfold scanToken
    rw [List.dropWhile_idempotent]
  have hlen := (List.dropWhile_suffix isspace (l := s)).length_le
  rw [← hskip]
  rcases words_split s with ⟨hs, hws⟩ | ⟨w, rest, hs, hws, hw, hns, hrest⟩
  · rw [hs]
    exact Or.inl ⟨hws, rfl⟩
  · right
    rw [hs] at hlen ⊢
    refine ⟨w, words rest, w.drop width ++ rest, hws, hw, scanToken_word width hw hns hrest,
      words_spill width hns hrest, ?_⟩
    rw [← List.length_append, ← List.append_assoc, List.take_append_drop]
    exact hlen

/-! ## `strtok_r` -/

/-- One `strtok_r` call with the save pointer explicit: skip delimiters, take the block up to
    the next delimiter and step over that one.  `[]` plays the exhausted save pointer. -/
def strtokR (delim : UInt8) (s : Bytes) : Option Bytes × Bytes :=
  let s := s.dropWhile (· == delim)
  if s = [] then (none, [])
  else (some (s.takeWhile (· != delim)), (s.dropWhile (· != delim)).drop 1)

section

variable {delim : UInt8} {w : Bytes}

theorem bne_of_not_mem (hd : delim ∉ w) : ∀ b ∈ w, (b != delim) = true := by
  intro b hb
  rw [bne_iff_ne]
  rintro rfl
  exact hd hb

theorem beq_of_not_mem (hd : delim ∉ w) : ∀ b ∈ w, (b == delim) = false := by
  intro b hb
  simpa using bne_of_not_mem hd b hb

/-- In front of a block there is no delimiter to skip. -/
theorem dropWhile_block (rest : Bytes) (hw : w ≠ []) (hd : delim ∉ w) :
    (w ++ rest).dropWhile (· == delim) = w ++ rest := by
  obtain ⟨x, w, rfl⟩ := List.exists_cons_of_ne_nil hw
  apply List.dropWhile_cons_of_neg
  have := bne_of_not_mem hd x List.mem_cons_self
  simpa using this

/-- One call takes one maximal block without delimiter and steps over the delimiter behind it. -/
theorem strtokR_block (rest : Bytes) (hw : w ≠ []) (hd : delim ∉ w) :
    strtokR delim (w ++ delim :: rest) = (some w, rest) := by
  have hne := bne_of_not_mem hd
  unfold strtokR
  simp only [dropWhile_block (delim :: rest) hw hd]
  rw [if_neg (by simp [hw]), List.takeWhile_append_of_pos hne, List.dropWhile_append_of_pos hne]
  simp

/-- The last block has no delimiter behind it. -/
theorem strtokR_last (hw : w ≠ []) (hd : delim ∉ w) : strtokR delim w = (some w, []) := by
  have hne := bne_of_not_mem hd
  have hskip := dropWhile_block [] hw hd
  rw [List.append_nil] at hskip
  unfold strtokR
  simp only [hskip]
  rw [if_neg hw, List.takeWhile_eq_self_iff.mpr hne, List.dropWhile_eq_nil_iff.mpr hne]
  rfl

end

/-- At most `n` successive `strtok_r` calls, up to the first NULL. -/
def strtokN (delim : UInt8) : Nat → Bytes → List Bytes
  | 0, _ => []
  | n + 1, s =>
    match strtokR delim s with
    | (none, _) => []
    | (some t, rest) => t :: strtokN delim n rest

/-- All the tokens of a string: every call consumes at least a byte, so `s.length` calls do. -/
def strtokAll (delim : UInt8) (s : Bytes) : List Bytes := strtokN delim s.length s

section

variable {delim : UInt8}

theorem strtokN_nil (n : Nat) : strtokN delim n [] = [] := by
  cases n <;> rfl

/-- A leading delimiter is skipped. -/
theorem strtokN_delim (n : Nat) (s : Bytes) :
    strtokN delim (n + 1) (delim :: s) = strtokN delim (n + 1) s := by
  have hskip : strtokR delim (delim :: s) = strtokR delim s := by
    unfold strtokR
    rw [List.dropWhile_cons_of_pos (p := fun x => x == delim) (beq_self_eq_true delim)]
  rw [strtokN, strtokN, hskip]

/-- **The tokens are the non-empty parts between the delimiters.** -/
theorem strtokAll_eq_splitOn (s : Bytes) :
    strtokAll delim s = (s.splitOn delim).filter (! ·.isEmpty) := by
  have hcalls : ∀ m n, ∀ s : Bytes, s.length ≤ m → s.length ≤ n →
      strtokN delim n s = (s.splitOn delim).filter (! ·.isEmpty) := by
    intro m
    induction m with
    | zero =>
      intro n s hs _
      obtain rfl := List.length_eq_zero_iff.mp (Nat.le_zero.mp hs)
      rw [strtokN_nil]
      rfl
    | succ m ih =>
      intro n s hm hn
      cases s with
      | nil =>
        rw [strtokN_nil]
        rfl
      | cons x s =>
        obtain ⟨n, rfl⟩ : ∃ k, n = k + 1 := ⟨n - 1, by rw [List.length_cons] at hn; omega⟩
        rw [List.length_cons] at hm hn
        by_cases hx : x = delim
        · subst hx
          rw [strtokN_delim, ih (n + 1) s (by omega) (by omega), List.splitOn_cons_eq_if_modifyHead,
            if_pos (beq_self_eq_true x)]
          rfl
        · by_cases hmem : delim ∈ x :: s
          · -- the first token ends at the first delimiter
            obtain ⟨w, rest, hsplit, hw⟩ := List.eq_append_cons_of_mem hmem
            have hne : w ≠ [] := by
              rintro rfl
              exact hx (List.cons.inj hsplit).1
            have hlen := congrArg List.length hsplit
            rw [List.length_cons, List.length_append, List.length_cons] at hlen
            rw [hsplit, strtokN, strtokR_block rest hne hw, List.splitOn_eq_splitOnP,
              List.splitOnP_append_cons_of_forall_mem (p := fun b => b == delim) (beq_of_not_mem hw) delim
                (beq_self_eq_true delim), List.filter_cons_of_pos (by simpa using hne)]
            dsimp only
            rw [ih n rest (by omega) (by omega), List.splitOn_eq_splitOnP]
          · rw [strtokN, strtokR_last (List.cons_ne_nil x s) hmem, List.splitOn_eq_splitOnP,
              List.splitOnP_eq_singleton (p := fun b => b == delim) (beq_of_not_mem hmem)]
            dsimp only
            rw [strtokN_nil]
            rfl
  exact hcalls s.length s.length s (Nat.le_refl _) (Nat.le_refl _)

/-- A text of lines, each ended by the delimiter, has these lines as tokens. -/
theorem strtokAll_lines {ws : List Bytes} (h : ∀ w ∈ ws, w ≠ [] ∧ delim ∉ w) :
    strtokAll delim (ws.flatMap (· ++ [delim])) = ws := by
  have hcalls : ∀ n, ws.length ≤ n → strtokN delim n (ws.flatMap (· ++ [delim])) = ws := by
    induction ws with
    | nil => exact fun n _ => strtokN_nil n
    | cons w ws ih =>
      intro n hn
      obtain ⟨hw, hd⟩ := h w List.mem_cons_self
      cases n with
      | zero => exact absurd hn (by simp)
      | succ n =>
        have hrest := ih (fun v hv => h v (List.mem_cons_of_mem w hv)) n (by simpa using hn)
        rw [List.flatMap_cons, List.append_assoc, List.singleton_append, strtokN,
          strtokR_block _ hw hd]
        dsimp only
        rw [hrest]
  refine hcalls _ ?_
  clear hcalls h
  induction ws with
  | nil => exact Nat.le_refl 0
  | cons w ws ih =>
    rw [List.flatMap_cons, List.length_append, List.length_append, List.length_cons,
      List.length_singleton]
    omega

/-- Fields with the delimiter between them are its tokens. -/
theorem strtokAll_fields {ws : List Bytes} (hne : ws ≠ []) (h : ∀ w ∈ ws, w ≠ [] ∧ delim ∉ w) :
    strtokAll delim ([delim].intercalate ws) = ws := by
  have hcalls : ∀ n, ws.length ≤ n → strtokN delim n ([delim].intercalate ws) = ws := by
    induction ws with
    | nil => exact absurd rfl hne
    | cons w ws ih =>
      intro n hn
      obtain ⟨hw, hd⟩ := h w List.mem_cons_self
      cases n with
      | zero => exact absurd hn (by simp)
      | succ n =>
        cases ws with
        | nil =>
          rw [List.intercalate_singleton, strtokN, strtokR_last hw hd]
          dsimp only
          rw [strtokN_nil]
        | cons v ws =>
          have hrest := ih (List.cons_ne_nil v ws) (fun u hu => h u (List.mem_cons_of_mem w hu)) n
            (by simpa using hn)
          rw [List.intercalate_cons_cons, List.append_assoc, List.singleton_append, strtokN,
            strtokR_block _ hw hd]
          dsimp only
          rw [hrest]
  refine hcalls _ ?_
  clear hcalls
  induction ws with
  | nil => exact absurd rfl hne
  | cons w ws ih =>
    have hpos : 0 < w.length := List.length_pos_iff.mpr (h w List.mem_cons_self).1
    cases ws with
    | nil =>
      rw [List.intercalate_singleton, List.length_singleton]
      exact hpos
    | cons v ws =>
      have hrest := ih (List.cons_ne_nil v ws) fun u hu => h u (List.mem_cons_of_mem w hu)
      rw [List.intercalate_cons_cons, List.length_append, List.length_append,
        List.length_singleton, List.length_cons]
      omega
end

/-! ## `strtol` in base ten -/

/-- Value of a digit string. -/
def digitsVal (s : Bytes) : Nat := s.foldl (fun v b => 10 * v + (b.toNat - 48)) 0

/-- `LONG_MAX` and `LONG_MIN` of an LP64 system. -/
def longMax : Int := 2 ^ 63 - 1
def longMin : Int := -2 ^ 63

/-- The number `strtol` reads in base ten, before it is fitted into a `long`, and the rest of the
    string behind it; `none` when there is no digit. -/
def strtolExact (s : Bytes) : Option (Int × Bytes) :=
  let t := s.dropWhile isspace
  let neg := t.head? == some 45
  let t := if t.head? == some 45 || t.head? == some 43 then t.drop 1 else t
  let ds := t.takeWhile isdigit
  if ds = [] then none
  else some (if neg then - (digitsVal ds : Int) else digitsVal ds, t.drop ds.length)

/-- `strtol(s, &end, 10)`: the value, saturated at the range of `long`, and the rest of the
    string from `end` on (the whole string when there is no digit). -/
def strtol (s : Bytes) : Int × Bytes :=
  match strtolExact s with
  | none => (0, s)
  | some (v, rest) => (max longMin (min longMax v), rest)

/-- `strtol` sets `errno` (to `ERANGE`): the number did not fit a `long`. -/
def strtolErange (s : Bytes) : Bool :=
  match strtolExact s with
  | none => false
  | some (v, _) => decide (v < longMin ∨ longMax < v)

/-- `(int)` of a `long`: the low 32 bits, as two's complement. -/
def toInt32 (v : Int) : Int := (v + 2 ^ 31) % 2 ^ 32 - 2 ^ 31

/-- `atoi(s)`, that is `(int)strtol(s, NULL, 10)`. -/
def atoi (s : Bytes) : Int := toInt32 (strtol s).1

/-- `strtol` on digits alone reads them all. -/
theorem strtolExact_digits {ds : Bytes} (hne : ds ≠ []) (hd : ∀ b ∈ ds, isdigit b = true) :
    strtolExact ds = some ((digitsVal ds : Int), []) := by
  obtain ⟨x, t, rfl⟩ := List.exists_cons_of_ne_nil hne
  have hx := hd x List.mem_cons_self
  have hskip : (x :: t).dropWhile isspace = x :: t :=
    List.dropWhile_cons_of_neg (by simp [isspace_of_isdigit hx])
  have h45 : x ≠ 45 := by
    rintro rfl
    exact absurd hx (by decide)
  have h43 : x ≠ 43 := by
    rintro rfl
    exact absurd hx (by decide)
  unfold strtolExact
  simp only [hskip, List.head?_cons, Option.some_beq_some, beq_iff_eq]
  simp [List.takeWhile_eq_self_iff.mpr hd, h45, h43]

theorem strtol_digits {ds : Bytes} (hne : ds ≠ []) (hd : ∀ b ∈ ds, isdigit b = true) :
    strtol ds = (min longMax (digitsVal ds : Int), []) := by
  unfold strtol
  rw [strtolExact_digits hne hd]
  have hpos : longMin ≤ min longMax (digitsVal ds : Int) := by
    simp only [longMin, longMax]
    omega
  show (max longMin _, _) = _
  rw [max_eq_right hpos]

/-- Digits up to the end. -/
theorem isdigit_of_whole {t : Bytes} (h : t.drop (t.takeWhile isdigit).length = []) :
    t.takeWhile isdigit = t ∧ ∀ b ∈ t, isdigit b = true := by
  have hall : t.takeWhile isdigit = t :=
    (List.takeWhile_prefix isdigit).eq_of_length_le (List.drop_eq_nil_iff.mp h)
  exact ⟨hall, List.takeWhile_eq_self_iff.mp hall⟩

/-- A text without white space that `strtol` reads to its end is a sign, or none, and digits. -/
theorem strtolExact_whole {s : Bytes} {v : Int} (hspace : ∀ b ∈ s, isspace b = false)
    (h : strtolExact s = some (v, [])) :
    ∃ ds, ds ≠ [] ∧ (∀ b ∈ ds, isdigit b = true) ∧
      (s = 45 :: ds ∧ v = - (digitsVal ds : Int) ∨ (s = ds ∨ s = 43 :: ds) ∧ v = digitsVal ds) := by
  cases s with
  | nil => cases h
  | cons x t =>
    have hskip : (x :: t).dropWhile isspace = x :: t :=
      List.dropWhile_cons_of_neg (by simp [hspace x List.mem_cons_self])
    have hread : ∀ u : Bytes, ∀ w : Int, (if u.takeWhile isdigit = [] then none
        else some (w, u.drop (u.takeWhile isdigit).length)) = some (v, []) →
        u ≠ [] ∧ (∀ b ∈ u, isdigit b = true) ∧ u.takeWhile isdigit = u ∧ v = w := by
      intro u w hu
      split at hu
      · cases hu
      · rename_i hne
        obtain ⟨rfl, hrest⟩ := Prod.mk.inj (Option.some.inj hu)
        obtain ⟨hself, hall⟩ := isdigit_of_whole hrest
        exact ⟨hself ▸ hne, hall, hself, rfl⟩
    unfold strtolExact at h
    simp only [hskip, List.head?_cons, Option.some_beq_some, beq_iff_eq, Bool.or_eq_true,
      List.drop_succ_cons, List.drop_zero] at h
    by_cases hminus : x = 45
    · subst hminus
      obtain ⟨hne, hall, hself, hv⟩ := hread t (- (digitsVal (t.takeWhile isdigit) : Int)) h
      rw [hself] at hv
      exact ⟨t, hne, hall, Or.inl ⟨rfl, hv⟩⟩
    · rw [if_neg hminus] at h
      by_cases hplus : x = 43
      · subst hplus
        obtain ⟨hne, hall, hself, hv⟩ := hread t (digitsVal (t.takeWhile isdigit)) h
        rw [hself] at hv
        exact ⟨t, hne, hall, Or.inr ⟨Or.inr rfl, hv⟩⟩
      · have hsign : ¬ (x = 45 ∨ x = 43) := by
          rintro (h | h)
          · exact hminus h
          · exact hplus h
        simp only [if_neg hsign] at h
        obtain ⟨hne, hall, hself, hv⟩ := hread (x :: t) _ h
        rw [hself] at hv
        exact ⟨x :: t, hne, hall, Or.inr ⟨Or.inl rfl, hv⟩⟩
/-- Without a digit there is no number. -/
theorem strtol_nil : strtol [] = (0, []) := rfl

/-! ## `%d` of `printf` -/

/-- Decimal digits of a number, as `printf("%d")` writes them. -/
def decimal (n : Nat) : Bytes :=
  if n = 0 then [48] else (Nat.digits 10 n).reverse.map fun d => UInt8.ofNat (48 + d)

theorem decimal_ne_nil (n : Nat) : decimal n ≠ [] := by
  unfold decimal
  split
  · exact List.cons_ne_nil _ _
  · rename_i hn
    simp [Nat.digits_ne_nil_iff_ne_zero.mpr hn]

theorem decimal_isdigit {n : Nat} {b : UInt8} (h : b ∈ decimal n) : isdigit b = true := by
  unfold decimal at h
  split at h
  · obtain rfl := List.mem_singleton.mp h
    rfl
  · obtain ⟨d, hd, rfl⟩ := List.mem_map.mp h
    have hlt := Nat.digits_lt_base (by decide : 1 < 10) (List.mem_reverse.mp hd)
    rw [isdigit_iff, UInt8.toNat_ofNat', Nat.mod_eq_of_lt (by omega)]
    omega

/-- What `%d` prints, `strtol` reads. -/
theorem digitsVal_decimal (n : Nat) : digitsVal (decimal n) = n := by
  have hfold : ∀ l : List Nat, (∀ d ∈ l, d < 10) →
      digitsVal (l.reverse.map fun d => UInt8.ofNat (48 + d)) = Nat.ofDigits 10 l := by
    intro l
    induction l with
    | nil => exact fun _ => rfl
    | cons d l ih =>
      intro hl
      have hd := hl d List.mem_cons_self
      have hval : (UInt8.ofNat (48 + d)).toNat - 48 = d := by
        rw [UInt8.toNat_ofNat', Nat.mod_eq_of_lt (by omega)]
        omega
      have ih' := ih fun e he => hl e (List.mem_cons_of_mem d he)
      unfold digitsVal at ih' ⊢
      rw [List.reverse_cons, List.map_append, List.foldl_append, ih', Nat.ofDigits_cons]
      show 10 * Nat.ofDigits 10 l + ((UInt8.ofNat (48 + d)).toNat - 48) = _
      rw [hval]
      omega
  unfold decimal
  split
  · rename_i hn
    subst hn
    rfl
  · rw [hfold _ fun d hd => Nat.digits_lt_base (by decide) hd, Nat.ofDigits_digits]

/-- A port number has at most five digits. -/
theorem decimal_length {n k : Nat} (hk : 0 < k) (h : n < 10 ^ k) : (decimal n).length ≤ k := by
  unfold decimal
  split
  · exact hk
  · rw [List.length_map, List.length_reverse]
    exact (Nat.digits_length_le_iff (by decide) n).mpr h

end CLib
