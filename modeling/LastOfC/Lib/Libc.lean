import Mathlib.Algebra.Order.Ring.Nat
import Mathlib.Algebra.Ring.Int.Defs
import Mathlib.Data.List.Basic
import Mathlib.Data.List.TakeWhile

/-!
# `strtok` and `atoi`

The two functions of the C library that take texts apart, over lists of characters, with what they
do to texts of the form they are made for.

* `strtok d s`: the first token of `s` with the delimiter `d`, and what the next call goes on with.
* `Words d s ws`: the text `s` is the words `ws`, with at least one `d` between two of them.
  `strtok_word` and `strtok_none`: `strtok` finds these words.
* `words d s`: the words of any text. `strtok_words`: `strtok` takes the first.
* `atoi`: the value of `strtol`, between the bounds of a 64-bit `long`, cut to an `int`.
* `Decimal w n`: the digits `w` are the number `n`. `atoi_decimal`: `atoi` finds it.
-/

namespace Libc

/-! ## `strtok` -/

/-- `strtok(s, d)`: the token, or none, and the text after it. -/
def strtok (d : Char) (s : List Char) : Option (List Char) × List Char :=
  let s := s.dropWhile (· = d)
  if s = [] then (none, [])
  else (some (s.takeWhile (· ≠ d)), (s.dropWhile (· ≠ d)).drop 1)

/-- `s` is the words `ws`. -/
inductive Words (d : Char) : List Char → List (List Char) → Prop
  | nil (n : Nat) : Words d (List.replicate n d) []
  | cons (n : Nat) {w rest : List Char} {ws : List (List Char)} (hw : w ≠ []) (hd : d ∉ w)
      (hrest : rest = [] ∨ rest.head? = some d) (h : Words d rest ws) :
      Words d (List.replicate n d ++ w ++ rest) (w :: ws)

variable {d : Char} {s rest : List Char} {w : List Char} {ws : List (List Char)}

/-- One delimiter less at the front makes no difference. -/
theorem Words.tail (h : Words d (d :: rest) ws) : Words d rest ws := by
  generalize hs : d :: rest = s at h
  cases h with
  | nil n =>
    cases n with
    | zero => cases hs
    | succ n =>
      rw [List.replicate_succ, List.cons.injEq] at hs
      exact hs.2 ▸ .nil n
  | @cons n w rest' ws hw hd hrest h =>
    cases n with
    | zero =>
      -- The text starts with a word, and `d` is not in it.
      cases w with
      | nil => exact absurd rfl hw
      | cons c w =>
        rw [List.replicate_zero, List.nil_append, List.cons_append, List.cons.injEq] at hs
        exact absurd (hs.1 ▸ List.mem_cons_self) hd
    | succ n =>
      rw [List.replicate_succ, List.cons_append, List.cons_append, List.cons.injEq] at hs
      exact hs.2 ▸ .cons n hw hd hrest h

/-- One delimiter more at the front makes no difference. -/
theorem Words.delimiter (h : Words d s ws) : Words d (d :: s) ws := by
  cases h with
  | nil n => exact .nil (n + 1)
  | cons n hw hd hrest h => exact .cons (n + 1) hw hd hrest h

/-- The text of one word. -/
theorem Words.word (hw : w ≠ []) (hd : d ∉ w) : Words d w [w] := by
  have h := Words.cons 0 hw hd (.inl rfl) (.nil 0)
  rwa [List.replicate_zero, List.nil_append, List.append_nil] at h

/-- A word, a delimiter and the rest. -/
theorem Words.append (hw : w ≠ []) (hd : d ∉ w) (h : Words d s ws) :
    Words d (w ++ d :: s) (w :: ws) := by
  have h := Words.cons 0 hw hd (.inr rfl) h.delimiter
  rwa [List.replicate_zero, List.nil_append] at h

theorem dropWhile_replicate_append (n : Nat) (s : List Char) :
    (List.replicate n d ++ s).dropWhile (· = d) = s.dropWhile (· = d) := by
  rw [List.dropWhile_append_of_pos]
  intro c hc
  rw [List.eq_of_mem_replicate hc]
  exact decide_eq_true rfl

/-- `strtok` finds the first word, and goes on with the others. -/
theorem strtok_word (h : Words d s (w :: ws)) :
    ∃ rest, strtok d s = (some w, rest) ∧ Words d rest ws := by
  generalize hv : w :: ws = vs at h
  cases h with
  | nil => cases hv
  | @cons n w' rest ws' hw hd hrest h =>
    obtain ⟨rfl, rfl⟩ := List.cons.inj hv
    have hstart : (List.replicate n d ++ w ++ rest).dropWhile (· = d) = w ++ rest := by
      rw [List.append_assoc, dropWhile_replicate_append]
      cases w with
      | nil => exact absurd rfl hw
      | cons c w =>
        have hc : c ≠ d := fun hcd => hd (hcd ▸ List.mem_cons_self)
        rw [List.cons_append, List.dropWhile_cons_of_neg (by simpa using hc)]
    have hword : ∀ c ∈ w, decide (c ≠ d) = true :=
      fun c hc => decide_eq_true fun hcd => hd (hcd ▸ hc)
    unfold strtok
    simp only [hstart, List.append_eq_nil_iff, hw, false_and, if_false,
      List.takeWhile_append_of_pos hword, List.dropWhile_append_of_pos hword]
    rcases hrest with rfl | hrest
    · exact ⟨[], by simp, h⟩
    · cases rest with
      | nil => cases hrest
      | cons c rest =>
        obtain rfl := Option.some.inj hrest
        exact ⟨rest, by simp, h.tail⟩

theorem strtok_none (h : Words d s []) : strtok d s = (none, []) ∧ Words d ([] : List Char) [] := by
  generalize hv : ([] : List (List Char)) = vs at h
  cases h with
  | nil n =>
    refine ⟨?_, .nil 0⟩
    have hstart := dropWhile_replicate_append (d := d) n []
    rw [List.append_nil, List.dropWhile_nil] at hstart
    unfold strtok
    simp only [hstart, if_true]
  | cons => cases hv

/-- The texts between delimiters, without the empty ones. -/
def words (d : Char) (s : List Char) : List (List Char) := (s.splitOn d).filter (· ≠ [])

@[simp] theorem words_nil : words d [] = [] := by
  simp [words]

theorem words_dropWhile (d : Char) (s : List Char) : words d (s.dropWhile (· = d)) = words d s := by
  induction s with
  | nil => rfl
  | cons c s ih =>
    by_cases hc : c = d
    · rw [List.dropWhile_cons_of_pos (by simpa using hc), ih]
      simp [words, List.splitOn_cons_eq_if_modifyHead, hc]
    · rw [List.dropWhile_cons_of_neg (by simpa using hc)]

/-- `strtok` takes the first word, and leaves the others. -/
theorem strtok_words (d : Char) (s : List Char) :
    (strtok d s).1 = (words d s).head? ∧ words d (strtok d s).2 = (words d s).tail := by
  rw [← words_dropWhile d s]
  unfold strtok
  have hstart : (s.dropWhile (· = d)).head? ≠ some d := by
    intro hd
    have hne := List.head?_dropWhile_not (fun c => decide (c = d)) s
    rw [hd] at hne
    simp at hne
  generalize s.dropWhile (· = d) = s at hstart
  by_cases hs : s = []
  · simp [hs]
  · simp only [if_neg hs]
    -- The first word is what stands before the first delimiter.
    have hword : d ∉ s.takeWhile (· ≠ d) := by
      intro hd
      simpa using List.mem_takeWhile_imp hd
    have hne : s.takeWhile (· ≠ d) ≠ [] := by
      obtain ⟨c, s, rfl⟩ := List.exists_cons_of_ne_nil hs
      have hc : c ≠ d := fun hcd => hstart (by rw [hcd, List.head?_cons])
      simp [hc]
    have hsplit : s.takeWhile (· ≠ d) ++ s.dropWhile (· ≠ d) = s := List.takeWhile_append_dropWhile
    generalize s.takeWhile (· ≠ d) = w at *
    cases hrest : s.dropWhile (· ≠ d) with
    | nil =>
      rw [hrest, List.append_nil] at hsplit
      simp [words, ← hsplit, List.splitOn_eq_singleton hword, hne]
    | cons c rest =>
      have hc : c = d := by
        have hnot := List.head?_dropWhile_not (fun c => decide (c ≠ d)) s
        rw [hrest] at hnot
        simpa using hnot
      subst hc
      rw [hrest] at hsplit
      simp [words, ← hsplit, List.splitOn_append_cons_self_of_not_mem hword, hne]

/-! ## `atoi` -/

def isSpace (c : Char) : Bool := c = ' ' ∨ ('\t' ≤ c ∧ c ≤ '\r')

/-- The number that a list of digits is. -/
def digitsValue (w : List Char) : Nat := w.foldl (fun n c => 10 * n + (c.toNat - '0'.toNat)) 0

/-- A number with or without a sign, up to the first character that is no digit. -/
def signedValue : List Char → Int
  | '-' :: s => -(digitsValue (s.takeWhile Char.isDigit) : Int)
  | '+' :: s => digitsValue (s.takeWhile Char.isDigit)
  | s => digitsValue (s.takeWhile Char.isDigit)

/-- `strtol(s, NULL, 10)`. -/
def strtol (s : List Char) : Int :=
  max (-2 ^ 63) (min (signedValue (s.dropWhile isSpace)) (2 ^ 63 - 1))

def atoi (s : List Char) : BitVec 32 := BitVec.ofInt 32 (strtol s)

/-- The digits `w` are the number `n`. -/
def Decimal (w : List Char) (n : Nat) : Prop :=
  w ≠ [] ∧ (∀ c ∈ w, c.isDigit = true) ∧ digitsValue w = n

theorem isSpace_of_isDigit {c : Char} (hc : c.isDigit = true) : isSpace c = false := by
  cases hs : isSpace c with
  | false => rfl
  | true =>
    rcases of_decide_eq_true hs with rfl | hs
    · exact absurd hc (by decide)
    · have h₉ : c.val ≤ 13 := hs.2
      have h₀ : 48 ≤ c.val := by
        simp only [Char.isDigit, Bool.and_eq_true, decide_eq_true_eq] at hc
        exact hc.1
      exact absurd (UInt32.le_trans h₀ h₉) (by decide)

theorem signedValue_of_isDigit {c : Char} {w : List Char} (hc : c.isDigit = true) :
    signedValue (c :: w) = digitsValue ((c :: w).takeWhile Char.isDigit) := by
  unfold signedValue
  split
  · rename_i heq
    obtain ⟨rfl, -⟩ := List.cons.inj heq
    exact absurd hc (by decide)
  · rename_i heq
    obtain ⟨rfl, -⟩ := List.cons.inj heq
    exact absurd hc (by decide)
  · rfl

theorem atoi_decimal {n : Nat} (h : Decimal w n) (hn : n < 2 ^ 63) :
    atoi w = BitVec.ofNat 32 n := by
  obtain ⟨hw, hdig, rfl⟩ := h
  obtain ⟨c, w', rfl⟩ := List.exists_cons_of_ne_nil hw
  have hc : c.isDigit = true := hdig c List.mem_cons_self
  have hspace : ¬ isSpace c = true := by simp [isSpace_of_isDigit hc]
  have hstrtol : strtol (c :: w') = digitsValue (c :: w') := by
    unfold strtol
    rw [List.dropWhile_cons_of_neg hspace, signedValue_of_isDigit hc,
      List.takeWhile_eq_self_iff.mpr hdig]
    omega
  rw [atoi, hstrtol, BitVec.ofInt_natCast]

end Libc
