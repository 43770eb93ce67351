/-
The PHP functions on strings that the pfSense package uses.

A string of PHP is a sequence of bytes; here each byte is the character with its
number. The patterns of the package are character classes with a bound on the length,
so a pattern is a test on the text between `^` and `$`, and `at_end` adds what `$`
allows: one newline at the end.
-/
import F2bguard.PyText

set_option autoImplicit false

namespace F2bguard.Php

open F2bguard.PyText

/-- What `trim` removes from both ends. -/
def is_trimmed (c : Char) : Bool :=
  c = ' ' || c = '\t' || c = '\n' || c = '\r' || c.toNat == 0 || c.toNat == 11

/-- `trim`. It goes by a list of six bytes, and no white space beyond ASCII is on it. -/
def trim (s : Text) : Text := (s.dropWhile is_trimmed).rdropWhile is_trimmed

/-- `\s` -/
def is_space (c : Char) : Bool := (9 ≤ c.toNat && c.toNat ≤ 13) || c = ' '

/-- `preg_split('/[class]+/', s, -1, PREG_SPLIT_NO_EMPTY)` -/
def preg_split (class_ : Char → Bool) (s : Text) : List Text :=
  (s.splitOnP class_).filter (fun piece => piece ≠ [])

/-- `explode(sep, s, 2)`: what stands before the first separator, and after it. -/
def explode (sep : Char) (s : Text) : Text × Option Text :=
  (s.takeWhile (fun c => c ≠ sep), (s.dropWhile (fun c => c ≠ sep)).tail?)

/-- `/^pattern$/`. Without the modifier `D` the dollar matches before a newline at the end as
well, so a text that passes may end in one. -/
def at_end (pattern : Text → Bool) (s : Text) : Bool :=
  pattern s || (s.getLast? = some '\n' && pattern s.dropLast)

def ascii_lower (c : Char) : Char :=
  if 'A' ≤ c ∧ c ≤ 'Z' then Char.ofNat (c.toNat + 32) else c

/-- `strtolower` -/
def strtolower (s : Text) : Text := s.map ascii_lower

/-- The largest integer of PHP. -/
def PHP_INT_MAX : ℕ := 2 ^ 63 - 1

/-- `intval` of a string that starts with digits. What does not fit is cut down to the largest
integer. -/
def intval (s : Text) : ℕ := min (of_dec (s.takeWhile is_digit)) PHP_INT_MAX

/-- `implode(sep, parts)` with a separator of one character. -/
def implode (sep : Char) (parts : List Text) : Text := join sep parts

/-- The escape of one character in `htmlspecialchars` with `ENT_QUOTES`. -/
def html_char (c : Char) : Text :=
  if c = '&' then "&amp;".toList
  else if c = '"' then "&quot;".toList
  else if c = '\'' then "&#039;".toList
  else if c = '<' then "&lt;".toList
  else if c = '>' then "&gt;".toList
  else [c]

def htmlspecialchars (s : Text) : Text := s.flatMap html_char

/-- `array_unique` of a list of strings, and the keys of an array that is built by
`$array[$key] = true`: the first of each. -/
def array_unique (xs : List Text) : List Text :=
  xs.foldl (fun seen x => if x ∈ seen then seen else seen ++ [x]) []

/-! ## Facts

What each function does to a text of the form its callers have. -/

theorem explode_of_not_mem {sep : Char} {s : Text} (h : sep ∉ s) : explode sep s = (s, none) := by
  have hall : ∀ c ∈ s, decide (c ≠ sep) = true := by
    intro c hc
    rw [decide_eq_true_eq]
    rintro rfl
    exact h hc
  rw [explode, List.takeWhile_eq_self_iff.mpr hall, List.dropWhile_eq_nil_iff.mpr hall]
  rfl

theorem explode_append {sep : Char} {s rest : Text} (h : sep ∉ s) :
    explode sep (s ++ sep :: rest) = (s, some rest) := by
  have hall : ∀ c ∈ s, decide (c ≠ sep) = true := by
    intro c hc
    rw [decide_eq_true_eq]
    rintro rfl
    exact h hc
  rw [explode, List.takeWhile_append_of_pos hall, List.dropWhile_append_of_pos hall,
    List.takeWhile_cons_of_neg (by simp), List.dropWhile_cons_of_neg (by simp), List.append_nil]
  rfl

/-- The two ways a text falls apart at a separator. -/
theorem explode_cases (sep : Char) (s : Text) :
    (sep ∉ s ∧ explode sep s = (s, none)) ∨
      ∃ first rest, sep ∉ first ∧ s = first ++ sep :: rest ∧
        explode sep s = (first, some rest) := by
  by_cases h : sep ∈ s
  · obtain ⟨first, rest, rfl, hfirst⟩ := List.eq_append_cons_of_mem h
    exact .inr ⟨first, rest, hfirst, rfl, explode_append hfirst⟩
  · exact .inl ⟨h, explode_of_not_mem h⟩

theorem mem_unique_fold {x : Text} (xs : List Text) : ∀ seen : List Text,
    x ∈ xs.foldl (fun seen x => if x ∈ seen then seen else seen ++ [x]) seen ↔
      x ∈ seen ∨ x ∈ xs := by
  induction xs with
  | nil => intro seen; simp
  | cons y ys ih =>
    intro seen
    rw [List.foldl_cons, ih]
    split
    · rename_i hy
      rw [List.mem_cons]
      constructor
      · rintro (h | h)
        · exact .inl h
        · exact .inr (.inr h)
      · rintro (h | rfl | h)
        · exact .inl h
        · exact .inl hy
        · exact .inr h
    · rw [List.mem_append, List.mem_singleton, List.mem_cons, or_assoc]

@[simp] theorem mem_array_unique {x : Text} {xs : List Text} : x ∈ array_unique xs ↔ x ∈ xs := by
  rw [array_unique, mem_unique_fold]
  simp

theorem of_dec_lt {s : Text} (h : s.all is_digit) : of_dec s < 10 ^ s.length := by
  induction s with
  | nil => decide
  | cons c cs ih =>
    rw [List.all_cons, Bool.and_eq_true] at h
    have hcs := ih h.2
    have hc : c.toNat - '0'.toNat ≤ 9 := by
      have hdigit := h.1
      rw [is_digit, Bool.and_eq_true, decide_eq_true_eq, decide_eq_true_eq] at hdigit
      have hle : c.toNat ≤ '9'.toNat := hdigit.2
      exact Nat.sub_le_sub_right hle _
    rw [of_dec] at hcs ⊢
    rw [Nat.ofDigitChars_cons, Nat.mul_zero, Nat.zero_add, Nat.ofDigitChars_eq_ofDigitChars_zero,
      List.length_cons, Nat.pow_succ]
    have hmul := Nat.mul_le_mul_left (10 ^ cs.length) hc
    omega

/-- `intval` of digits. -/
theorem intval_digits {s : Text} (h : s.all is_digit) : intval s = min (of_dec s) PHP_INT_MAX := by
  rw [intval, List.takeWhile_eq_self_iff.mpr (List.all_eq_true.mp h)]

theorem intval_short {s : Text} (h : s.all is_digit) (hlen : s.length ≤ 18) :
    intval s = of_dec s := by
  have hpow : 10 ^ s.length ≤ 10 ^ 18 := Nat.pow_le_pow_right (by decide) hlen
  have hlt := of_dec_lt h
  have hmax : 10 ^ 18 ≤ PHP_INT_MAX := by decide
  rw [intval_digits h, Nat.min_eq_left (by omega)]

/-- Without a newline at the end `$` is the end. -/
theorem at_end_of_last {pattern : Text → Bool} {s : Text} (h : s.getLast? ≠ some '\n') :
    at_end pattern s = pattern s := by
  rw [at_end, decide_eq_false h, Bool.false_and, Bool.or_false]

theorem mem_splitOnP {class_ : Char → Bool} {s piece : Text} (h : piece ∈ s.splitOnP class_) :
    ∀ c ∈ piece, class_ c = false := by
  induction s generalizing piece with
  | nil =>
    rw [List.splitOnP_nil, List.mem_singleton] at h
    subst h
    exact fun c hc => absurd hc List.not_mem_nil
  | cons c s ih =>
    rw [List.splitOnP_cons_eq_if_modifyHead] at h
    split at h
    · rcases List.mem_cons.mp h with rfl | h
      · exact fun c hc => absurd hc List.not_mem_nil
      · exact ih h
    · rename_i hc
      obtain ⟨head, rest, heq⟩ := List.exists_cons_of_ne_nil (List.splitOnP_ne_nil class_ s)
      rw [heq, List.modifyHead_cons] at h
      rw [heq] at ih
      rcases List.mem_cons.mp h with rfl | h
      · intro d hd
        rcases List.mem_cons.mp hd with rfl | hd
        · exact Bool.eq_false_iff.mpr hc
        · exact ih List.mem_cons_self d hd
      · exact ih (List.mem_cons_of_mem _ h)

/-- A piece is not empty and holds no separator. -/
theorem mem_preg_split {class_ : Char → Bool} {s piece : Text} (h : piece ∈ preg_split class_ s) :
    piece ≠ [] ∧ ∀ c ∈ piece, class_ c = false := by
  rw [preg_split, List.mem_filter, decide_eq_true_eq] at h
  exact ⟨h.2, mem_splitOnP h.1⟩

theorem unique_fold_nodup (xs : List Text) : ∀ {seen : List Text}, seen.Nodup →
    (xs.foldl (fun seen x => if x ∈ seen then seen else seen ++ [x]) seen).Nodup := by
  induction xs with
  | nil => exact fun h => h
  | cons x xs ih =>
    intro seen h
    rw [List.foldl_cons]
    split
    · exact ih h
    · rename_i hx
      exact ih (List.nodup_append.mpr ⟨h, List.nodup_singleton x, by
        rintro a ha b hb rfl
        exact hx (List.mem_singleton.mp hb ▸ ha)⟩)

theorem array_unique_nodup (xs : List Text) : (array_unique xs).Nodup :=
  unique_fold_nodup xs List.nodup_nil

theorem unique_fold_of_nodup (xs : List Text) : ∀ {seen : List Text}, (seen ++ xs).Nodup →
    xs.foldl (fun seen x => if x ∈ seen then seen else seen ++ [x]) seen = seen ++ xs := by
  induction xs with
  | nil =>
    intro seen _
    rw [List.append_nil]
    rfl
  | cons x xs ih =>
    intro seen h
    have hx : x ∉ seen := fun hmem =>
      (List.nodup_append.mp h).2.2 x hmem x List.mem_cons_self rfl
    rw [List.foldl_cons, if_neg hx, ih, List.append_assoc, List.singleton_append]
    rw [List.append_assoc, List.singleton_append]
    exact h

/-- What has no repetition stays as it is. -/
theorem array_unique_of_nodup {xs : List Text} (h : xs.Nodup) : array_unique xs = xs := by
  rw [array_unique, unique_fold_of_nodup xs (by rwa [List.nil_append]), List.nil_append]

theorem ascii_lower_upper {c : Char} (h : 'A' ≤ c ∧ c ≤ 'Z') :
    (ascii_lower c).toNat = c.toNat + 32 := by
  have hle : c.toNat ≤ 90 := h.2
  have hvalid : (c.toNat + 32).isValidChar := .inl (by omega)
  rw [ascii_lower, if_pos h, Char.ofNat, dif_pos hvalid]
  rfl

/-- A letter is lowered once. -/
theorem ascii_lower_idem (c : Char) : ascii_lower (ascii_lower c) = ascii_lower c := by
  by_cases h : 'A' ≤ c ∧ c ≤ 'Z'
  · have hlower := ascii_lower_upper h
    have hge : 65 ≤ c.toNat := h.1
    generalize ascii_lower c = d at hlower ⊢
    refine if_neg (fun hd => ?_)
    have hle : d.toNat ≤ 90 := hd.2
    omega
  · rw [show ascii_lower c = c from if_neg h]
    exact if_neg h

theorem strtolower_idem (s : Text) : strtolower (strtolower s) = strtolower s := by
  rw [strtolower, strtolower, List.map_map]
  exact List.map_congr_left (fun c _ => ascii_lower_idem c)

end F2bguard.Php
