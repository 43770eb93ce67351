/-
UUID texts: Python's `uuid.UUID`, and the pattern the sender checks.

The receiver accepts a text when `str(uuid.UUID(text))` is its lower-case form, which
runs it through `int(hex, 16)` with all that function tolerates. The sender makes its
own with `uuid4` and checks them against a regular expression. `uuid_str_uuid_int` is
where the two meet: a lower-case text of the canonical shape is read as the number that
prints as this text.
-/
import F2bguard.PyText

set_option autoImplicit false

namespace F2bguard.Uuid

open F2bguard.PyText

/-! ## `uuid.UUID`

The constructor takes `urn:`, `uuid:`, braces and hyphens away wherever they stand and gives the
rest to `int` when it has 32 characters. Hence many texts are read as one number, and only the
comparison with its printed form makes the check of the receiver strict. -/

/-- `s.replace(old, "")`. -/
def remove (old : Text) : Text → Text
  | [] => []
  | c :: cs =>
      if old ≠ [] ∧ old.isPrefixOf (c :: cs) then remove old (cs.drop (old.length - 1))
      else c :: remove old cs
  termination_by s => s.length
  decreasing_by all_goals (simp only [List.length_cons, List.length_drop]; omega)

/-- The `0x` of `int(s, 16)`, with the underscore that may follow it. Without the prefix a text
may not begin with an underscore. -/
def drop_base : Text → Text
  | '0' :: x :: cs =>
      if x = 'x' ∨ x = 'X' then (if cs.head? = some '_' then cs.tail else cs) else '0' :: x :: cs
  | s => s

/-- `int(s, 16)`: white space around it, a plus sign, a `0x` prefix and single
underscores between digits are allowed, and so are the decimal digits of other scripts. -/
def int_base16 (s : Text) : Option ℕ :=
  let s := numeral s
  let s := if s.head? = some '+' then s.tail else s
  let parts := split '_' (drop_base s)
  if parts.any (· = []) then none else of_hex parts.flatten

/-- `uuid.UUID(value).int`, `none` for its `ValueError`. Thirty-two characters that `int` reads
can stand for fewer than 32 digits, so the number can be smaller than the text suggests. -/
def uuid_int (value : Text) : Option ℕ :=
  let hex := remove "uuid:".toList (remove "urn:".toList value)
  let is_brace := fun c => c = '\x7b' || c = '\x7d'
  let hex := ((hex.dropWhile is_brace).rdropWhile is_brace).filter (· ≠ '-')
  if hex.length = 32 then int_base16 hex else none

/-- `'%032x' % n`. -/
def hex32 (n : ℕ) : Text := List.replicate (32 - (to_hex n).length) '0' ++ to_hex n

/-- `str(uuid)`: the 32 digits in groups of 8, 4, 4, 4 and 12. -/
def uuid_str (n : ℕ) : Text :=
  let hex := hex32 n
  hex.take 8 ++ '-' :: ((hex.drop 8).take 4 ++ '-' :: ((hex.drop 12).take 4
    ++ '-' :: ((hex.drop 16).take 4 ++ '-' :: hex.drop 20)))

/-- `s.lower()`. Only ASCII letters can lower to a character of a UUID. -/
def lower (s : Text) : Text := s.map Char.toLower

/-! ## Patterns

The patterns of the program have a fixed length, so that matching one is comparing character by
character. -/

/-- A regular expression that is a sequence of character classes, matched in full. -/
def fullmatch : List (Char → Bool) → Text → Bool
  | [], [] => true
  | p :: ps, c :: cs => p c && fullmatch ps cs
  | _, _ => false

def is_dash (c : Char) : Bool := c = '-'

/-- The canonical shape: 8, 4, 4, 4 and 12 digits, with classes of their own for the
version and the variant. -/
def uuid_pattern (hex version variant : Char → Bool) : List (Char → Bool) :=
  List.replicate 8 hex ++ is_dash :: (List.replicate 4 hex ++ is_dash :: (version ::
    (List.replicate 3 hex ++ is_dash :: (variant ::
      (List.replicate 3 hex ++ is_dash :: List.replicate 12 hex)))))

def is_hex (c : Char) : Bool := (hex_digit c).isSome

/-- `UUID_RE.fullmatch(value)` of the sender. It allows upper case, and asks for a version from 1
to 5 and for a first digit of the fourth group from 8 to b; the receiver asks for neither. -/
def uuid_re (value : Text) : Bool :=
  fullmatch (uuid_pattern is_hex (fun c => '1' ≤ c && c ≤ '5') (fun c => c ∈ "89abAB".toList))
    value

/-- A text `str(uuid.uuid4())` can be. -/
structure Uuid4 where
  text : Text
  canonical : fullmatch (uuid_pattern is_hex_lower (· = '4') (fun c => c ∈ "89ab".toList)) text
  deriving DecidableEq

/-- A lower-case text of the canonical shape, of any version and variant. -/
def Canonical (s : Text) : Prop :=
  fullmatch (uuid_pattern is_hex_lower is_hex_lower is_hex_lower) s = true

instance (s : Text) : Decidable (Canonical s) :=
  inferInstanceAs (Decidable (fullmatch (uuid_pattern is_hex_lower is_hex_lower is_hex_lower) s = true))

theorem fullmatch_map (f : Char → Char) {ps qs : List (Char → Bool)}
    (h : List.Forall₂ (fun p q => ∀ c, p c = true → q (f c) = true) ps qs) :
    ∀ {s : Text}, fullmatch ps s = true → fullmatch qs (s.map f) = true := by
  induction h with
  | nil =>
    intro s hs
    cases s with
    | nil => rfl
    | cons c cs => simp [fullmatch] at hs
  | cons hpq _ ih =>
    intro s hs
    cases s with
    | nil => simp [fullmatch] at hs
    | cons c cs =>
      rw [fullmatch, Bool.and_eq_true] at hs
      rw [List.map_cons, fullmatch, Bool.and_eq_true]
      exact ⟨hpq c hs.1, ih hs.2⟩

theorem fullmatch_mono {ps qs : List (Char → Bool)}
    (h : List.Forall₂ (fun p q => ∀ c, p c = true → q c = true) ps qs) {s : Text}
    (hs : fullmatch ps s = true) : fullmatch qs s = true := by
  have := fullmatch_map id h hs
  rwa [List.map_id] at this

theorem forall₂_uuid_pattern (f : Char → Char)
    {hex version variant hex' version' variant' : Char → Bool} (hf : f '-' = '-')
    (h1 : ∀ c, hex c = true → hex' (f c) = true)
    (h2 : ∀ c, version c = true → version' (f c) = true)
    (h3 : ∀ c, variant c = true → variant' (f c) = true) :
    List.Forall₂ (fun p q => ∀ c, p c = true → q (f c) = true) (uuid_pattern hex version variant)
      (uuid_pattern hex' version' variant') := by
  have hdash : ∀ c, is_dash c = true → is_dash (f c) = true := by
    intro c hc
    rw [is_dash, decide_eq_true_eq] at hc ⊢
    rw [hc, hf]
  simp only [uuid_pattern, List.replicate, List.cons_append, List.nil_append]
  repeat' constructor
  all_goals assumption

theorem is_hex_of_lower {c : Char} (h : is_hex_lower c = true) : is_hex c = true := by
  simp only [is_hex_lower, is_digit, Bool.or_eq_true, Bool.and_eq_true, decide_eq_true_eq] at h
  unfold is_hex hex_digit
  split_ifs <;> simp_all

/-- A pattern that takes lower-case digits, the version 4 and the four variants of a random UUID. -/
theorem Uuid4.fits (u : Uuid4) {hex version variant : Char → Bool}
    (hhex : ∀ c, is_hex_lower c = true → hex c = true) (hversion : version '4' = true)
    (hvariant : ∀ c ∈ "89ab".toList, variant c = true) :
    fullmatch (uuid_pattern hex version variant) u.text = true := by
  refine fullmatch_mono (forall₂_uuid_pattern id rfl hhex ?_ ?_) u.canonical
  · intro c hc
    rw [decide_eq_true_eq] at hc
    rw [id_eq, hc]
    exact hversion
  · intro c hc
    exact hvariant c (of_decide_eq_true hc)

theorem Uuid4.is_canonical (u : Uuid4) : Canonical u.text :=
  u.fits (fun _ h => h) (by decide) (by decide)

/-- The sender's own pattern holds of what `uuid4` returns. -/
theorem Uuid4.uuid_re (u : Uuid4) : uuid_re u.text = true :=
  u.fits (fun _ h => is_hex_of_lower h) (by decide) (by decide)

/-! ## Reading a canonical text

Nothing of what the constructor takes away stands in a canonical text but the hyphens, and what is
left are 32 lower-case digits. -/

theorem fullmatch_append {ps qs : List (Char → Bool)} :
    ∀ {s : Text}, fullmatch (ps ++ qs) s = true →
      ∃ a b, s = a ++ b ∧ fullmatch ps a = true ∧ fullmatch qs b = true := by
  induction ps with
  | nil => exact fun h => ⟨[], _, rfl, rfl, h⟩
  | cons p ps ih =>
    intro s h
    cases s with
    | nil => simp [fullmatch] at h
    | cons c cs =>
      rw [List.cons_append, fullmatch, Bool.and_eq_true] at h
      obtain ⟨a, b, rfl, ha, hb⟩ := ih h.2
      refine ⟨c :: a, b, rfl, ?_, hb⟩
      rw [fullmatch, h.1, ha]
      rfl

theorem fullmatch_append_of {ps qs : List (Char → Bool)} {b : Text} (hb : fullmatch qs b = true) :
    ∀ {a : Text}, fullmatch ps a = true → fullmatch (ps ++ qs) (a ++ b) = true := by
  induction ps with
  | nil =>
    intro a ha
    cases a with
    | nil => exact hb
    | cons c cs => simp [fullmatch] at ha
  | cons p ps ih =>
    intro a ha
    cases a with
    | nil => simp [fullmatch] at ha
    | cons c cs =>
      rw [fullmatch, Bool.and_eq_true] at ha
      rw [List.cons_append, List.cons_append, fullmatch, Bool.and_eq_true]
      exact ⟨ha.1, ih ha.2⟩

theorem fullmatch_replicate_of {p : Char → Bool} {s : Text} (h : ∀ c ∈ s, p c = true) :
    fullmatch (List.replicate s.length p) s = true := by
  induction s with
  | nil => rfl
  | cons c cs ih =>
    rw [List.length_cons, List.replicate_succ, fullmatch, Bool.and_eq_true]
    exact ⟨h c List.mem_cons_self, ih (fun d hd => h d (List.mem_cons_of_mem _ hd))⟩

theorem fullmatch_replicate {p : Char → Bool} {n : ℕ} :
    ∀ {s : Text}, fullmatch (List.replicate n p) s = true →
      s.length = n ∧ ∀ c ∈ s, p c = true := by
  induction n with
  | zero =>
    intro s h
    cases s with
    | nil => simp
    | cons c cs => simp [fullmatch] at h
  | succ n ih =>
    intro s h
    cases s with
    | nil => simp [List.replicate_succ, fullmatch] at h
    | cons c cs =>
      rw [List.replicate_succ, fullmatch, Bool.and_eq_true] at h
      obtain ⟨hlen, hall⟩ := ih h.2
      refine ⟨by simp [hlen], ?_⟩
      intro d hd
      rcases List.mem_cons.mp hd with rfl | hd
      · exact h.1
      · exact hall d hd

/-- The groups of a canonical text. -/
structure Groups (s : Text) where
  a : Text
  b : Text
  c : Text
  d : Text
  e : Text
  eq : s = a ++ '-' :: (b ++ '-' :: (c ++ '-' :: (d ++ '-' :: e)))
  a_length : a.length = 8
  b_length : b.length = 4
  c_length : c.length = 4
  d_length : d.length = 4
  e_length : e.length = 12
  hex : ∀ x ∈ a ++ b ++ c ++ d ++ e, is_hex_lower x = true

theorem exists_groups {s : Text} (h : Canonical s) : Nonempty (Groups s) := by
  have hfour : ∀ rest, fullmatch (is_hex_lower :: (List.replicate 3 is_hex_lower ++ rest)) =
      fullmatch (List.replicate 4 is_hex_lower ++ rest) := fun _ => rfl
  have hdash : ∀ {ps t}, fullmatch (is_dash :: ps) t = true →
      ∃ t', t = '-' :: t' ∧ fullmatch ps t' = true := by
    intro ps t ht
    cases t with
    | nil => simp [fullmatch] at ht
    | cons x xs =>
      rw [fullmatch, Bool.and_eq_true, is_dash, decide_eq_true_eq] at ht
      exact ⟨xs, by rw [ht.1], ht.2⟩
  -- the groups one after the other, each ended by a dash
  unfold Canonical uuid_pattern at h
  obtain ⟨a, s1, rfl, ha, h1⟩ := fullmatch_append h
  obtain ⟨t1, rfl, h2⟩ := hdash h1
  obtain ⟨b, s2, rfl, hb, h3⟩ := fullmatch_append h2
  obtain ⟨t2, rfl, h4⟩ := hdash h3
  rw [hfour] at h4
  obtain ⟨c, s3, rfl, hc, h5⟩ := fullmatch_append h4
  obtain ⟨t3, rfl, h6⟩ := hdash h5
  rw [hfour] at h6
  obtain ⟨d, s4, rfl, hd, h7⟩ := fullmatch_append h6
  obtain ⟨e, rfl, he⟩ := hdash h7
  obtain ⟨ha, ha'⟩ := fullmatch_replicate ha
  obtain ⟨hb, hb'⟩ := fullmatch_replicate hb
  obtain ⟨hc, hc'⟩ := fullmatch_replicate hc
  obtain ⟨hd, hd'⟩ := fullmatch_replicate hd
  obtain ⟨he, he'⟩ := fullmatch_replicate he
  refine ⟨⟨a, b, c, d, e, rfl, ha, hb, hc, hd, he, ?_⟩⟩
  intro x hx
  simp only [List.mem_append] at hx
  rcases hx with (((hx | hx) | hx) | hx) | hx
  · exact ha' x hx
  · exact hb' x hx
  · exact hc' x hx
  · exact hd' x hx
  · exact he' x hx

theorem remove_of_not_mem {x : Char} {old : Text} (hx : x ∈ old) :
    ∀ {s : Text}, x ∉ s → remove old s = s := by
  intro s
  induction s with
  | nil => intro _; rw [remove]
  | cons c cs ih =>
    intro hs
    rw [remove, if_neg, ih (fun h => hs (List.mem_cons_of_mem _ h))]
    rintro ⟨-, hprefix⟩
    obtain ⟨t, ht⟩ := List.isPrefixOf_iff_prefix.mp hprefix
    apply hs
    rw [← ht]
    exact List.mem_append_left _ hx

/-! ### Fixed-width hexadecimal texts -/

theorem exists_digitChar {c : Char} (hc : is_hex_lower c = true) :
    ∃ k < 16, c = Nat.digitChar k := by
  have hof : Char.ofNat c.toNat = c := Char.ofNat_toNat c
  simp only [is_hex_lower, is_digit, Bool.or_eq_true, Bool.and_eq_true, decide_eq_true_eq] at hc
  rcases hc with ⟨h1, h2⟩ | ⟨h1, h2⟩
  · have hlo : 48 ≤ c.toNat := h1
    have hhi : c.toNat ≤ 57 := h2
    refine ⟨c.toNat - 48, by omega, ?_⟩
    rw [← hof]
    interval_cases c.toNat <;> decide
  · have hlo : 97 ≤ c.toNat := h1
    have hhi : c.toNat ≤ 102 := h2
    refine ⟨c.toNat - 87, by omega, ?_⟩
    rw [← hof]
    interval_cases c.toNat <;> decide

theorem exists_of_hex {s : Text} (h : ∀ c ∈ s, is_hex_lower c = true) : ∃ n, of_hex s = some n := by
  induction s using List.reverseRecOn with
  | nil => exact ⟨0, rfl⟩
  | append_singleton s c ih =>
    obtain ⟨n, hn⟩ := ih (fun d hd => h d (List.mem_append_left _ hd))
    obtain ⟨k, hk, rfl⟩ := exists_digitChar (h c (by simp))
    rw [of_hex_append_digit, hn, Option.bind_some, hex_digit_digitChar hk]
    exact ⟨_, rfl⟩

/-- Lower-case hexadecimal texts of one length are equal when their values are. The
induction peels the last digit of both. -/
theorem of_hex_inj {s : Text} : ∀ {t : Text}, s.length = t.length →
    (∀ c ∈ s, is_hex_lower c = true) → (∀ c ∈ t, is_hex_lower c = true) →
    of_hex s = of_hex t → s = t := by
  induction s using List.reverseRecOn with
  | nil =>
    intro t hlen _ _ _
    exact (List.length_eq_zero_iff.mp hlen.symm).symm
  | append_singleton s c ih =>
    intro t hlen hs ht heq
    rcases List.eq_nil_or_concat t with rfl | ⟨t', d, rfl⟩
    · simp at hlen
    rw [List.concat_eq_append] at *
    have hs' : ∀ x ∈ s, is_hex_lower x = true := fun x hx => hs x (List.mem_append_left _ hx)
    have ht' : ∀ x ∈ t', is_hex_lower x = true := fun x hx => ht x (List.mem_append_left _ hx)
    obtain ⟨m, hm⟩ := exists_of_hex hs'
    obtain ⟨n, hn⟩ := exists_of_hex ht'
    obtain ⟨j, hj, rfl⟩ := exists_digitChar (hs c (by simp))
    obtain ⟨k, hk, rfl⟩ := exists_digitChar (ht d (by simp))
    rw [of_hex_append_digit, of_hex_append_digit, hm, hn, Option.bind_some, Option.bind_some,
      hex_digit_digitChar hj, hex_digit_digitChar hk, Option.map_some, Option.map_some] at heq
    have hval : 16 * m + j = 16 * n + k := Option.some.inj heq
    have hmn : m = n := by omega
    have hjk : j = k := by omega
    have hlen' : s.length = t'.length := by simpa using hlen
    rw [ih hlen' hs' ht' (by rw [hm, hn, hmn]), hjk]

theorem of_hex_replicate_zero (k : ℕ) (s : Text) :
    of_hex (List.replicate k '0' ++ s) = of_hex s := by
  induction k with
  | zero => rfl
  | succ k ih =>
    rw [List.replicate_succ, List.cons_append, ← ih]
    rfl

theorem of_hex_lt {s : Text} : ∀ {n : ℕ}, of_hex s = some n → n < 16 ^ s.length := by
  induction s using List.reverseRecOn with
  | nil =>
    intro n hn
    cases hn
    simp
  | append_singleton s c ih =>
    intro n hn
    rw [of_hex_append_digit] at hn
    obtain ⟨a, ha, hn⟩ := Option.bind_eq_some_iff.mp hn
    obtain ⟨d, hd, rfl⟩ := Option.map_eq_some_iff.mp hn
    have hd16 : d < 16 := by
      unfold hex_digit at hd
      split_ifs at hd with h1 h2 h3
      · have h57 : c.toNat ≤ 57 := h1.2
        have := Option.some.inj hd
        omega
      · have h102 : c.toNat ≤ 102 := h2.2
        have := Option.some.inj hd
        omega
      · have h70 : c.toNat ≤ 70 := h3.2
        have := Option.some.inj hd
        omega
    have hlt := ih ha
    rw [List.length_append, List.length_singleton, Nat.pow_succ]
    omega

theorem hex32_length {n : ℕ} (h : n < 16 ^ 32) : (hex32 n).length = 32 := by
  have hwidth : (to_hex n).length ≤ 32 := (to_hex_length_le (by norm_num)).mpr h
  rw [hex32, List.length_append, List.length_replicate]
  omega

theorem mem_hex32 {n : ℕ} {c : Char} (h : c ∈ hex32 n) : is_hex_lower c = true := by
  rcases List.mem_append.mp h with h | h
  · rw [(List.mem_replicate.mp h).2]
    decide
  · exact mem_to_hex h

/-- Printing the value of a 32-digit text gives the text. -/
theorem hex32_of_hex {h : Text} {n : ℕ} (hlen : h.length = 32)
    (hhex : ∀ c ∈ h, is_hex_lower c = true) (hn : of_hex h = some n) : hex32 n = h := by
  have hbound : n < 16 ^ 32 := by
    rw [← hlen]
    exact of_hex_lt hn
  apply of_hex_inj
  · rw [hex32_length hbound, hlen]
  · exact fun c hc => mem_hex32 hc
  · exact hhex
  · rw [hex32, of_hex_replicate_zero, of_hex_to_hex, hn]

/-- What `str` makes of a number of 128 bits is canonical. -/
theorem canonical_uuid_str {n : ℕ} (h : n < 16 ^ 32) : Canonical (uuid_str n) := by
  have hlen := hex32_length h
  have hpart : ∀ (k m : ℕ), k + m ≤ 32 → fullmatch (List.replicate m is_hex_lower)
      (((hex32 n).drop k).take m) = true := by
    intro k m hkm
    have hm : (((hex32 n).drop k).take m).length = m := by
      rw [List.length_take, List.length_drop]
      omega
    have hall : ∀ c ∈ ((hex32 n).drop k).take m, is_hex_lower c = true :=
      fun c hc => mem_hex32 (List.mem_of_mem_drop (List.mem_of_mem_take hc))
    have hmatch := fullmatch_replicate_of hall
    rwa [hm] at hmatch
  have hdash : ∀ {ps : List (Char → Bool)} {s : Text}, fullmatch ps s = true →
      fullmatch (is_dash :: ps) ('-' :: s) = true := fun hs => hs
  have hlast : fullmatch (List.replicate 12 is_hex_lower) ((hex32 n).drop 20) = true := by
    have := hpart 20 12 (by omega)
    rwa [List.take_of_length_le (by rw [List.length_drop]; omega)] at this
  have hfirst := hpart 0 8 (by omega)
  rw [List.drop_zero] at hfirst
  exact fullmatch_append_of (hdash (fullmatch_append_of (hdash (fullmatch_append_of
    (hdash (fullmatch_append_of (hdash hlast) (hpart 16 4 (by omega)))) (hpart 12 4 (by omega))))
    (hpart 8 4 (by omega)))) hfirst

/-! ### The values `int` can read

What `int(s, 16)` returns for at most 32 characters is below 16³², so it can be printed with 32
digits. -/

theorem flatten_split_length (sep : Char) (s : Text) :
    (split sep s).flatten.length ≤ s.length := by
  induction s with
  | nil => simp [split]
  | cons c cs ih =>
    unfold split List.splitOn at ih ⊢
    rw [List.splitOnP_cons_eq_if_modifyHead]
    split
    · rw [List.flatten_cons, List.nil_append, List.length_cons]
      omega
    · cases hcs : cs.splitOnP (· == sep) with
      | nil => exact absurd hcs (List.splitOnP_ne_nil _ _)
      | cons p ps =>
        rw [hcs, List.flatten_cons, List.length_append] at ih
        rw [List.modifyHead_cons, List.flatten_cons, List.length_append, List.length_cons,
          List.length_cons]
        omega

theorem drop_base_length (s : Text) : (drop_base s).length ≤ s.length := by
  unfold drop_base
  split
  · split
    · split
      · rw [List.length_tail, List.length_cons, List.length_cons]
        omega
      · rw [List.length_cons, List.length_cons]
        omega
    · exact le_rfl
  · exact le_rfl

theorem int_base16_lt {s : Text} {n : ℕ} (h : int_base16 s = some n) : n < 16 ^ s.length := by
  unfold int_base16 at h
  dsimp only at h
  generalize hplus : (if (numeral s).head? = some '+' then (numeral s).tail else numeral s) = t at h
  have ht : t.length ≤ s.length := by
    rw [← hplus]
    split
    · rw [List.length_tail]
      exact (Nat.sub_le _ _).trans (numeral_length_le s)
    · exact numeral_length_le s
  split at h
  · cases h
  · have hle := ((flatten_split_length '_' (drop_base t)).trans (drop_base_length t)).trans ht
    exact (of_hex_lt h).trans_le (Nat.pow_le_pow_right (by norm_num) hle)

theorem uuid_int_lt {value : Text} {n : ℕ} (h : uuid_int value = some n) : n < 16 ^ 32 := by
  unfold uuid_int at h
  dsimp only at h
  split at h
  · rename_i hlen
    rw [← hlen]
    exact int_base16_lt h
  · cases h

/-! ### The round trip

Reading a canonical text and printing what was read gives the text. So the receiver, which
compares the two, accepts every canonical text. -/

theorem not_mem_of_hex {s : Text} {x : Char} (h : ∀ c ∈ s, is_hex_lower c = true)
    (hx : is_hex_lower x = false) : x ∉ s := by
  intro hmem
  rw [h x hmem] at hx
  exact absurd hx (by decide)

theorem not_space_of_hex {c : Char} (h : is_hex_lower c = true) : is_space c = false := by
  obtain ⟨k, hk, rfl⟩ := exists_digitChar h
  interval_cases k <;> decide

theorem int_base16_hex {h : Text} (hne : h ≠ []) (hhex : ∀ c ∈ h, is_hex_lower c = true) :
    int_base16 h = of_hex h := by
  have hnumeral : numeral h = h := by
    refine numeral_of_ascii (fun c hc => ?_)
    obtain ⟨k, hk, rfl⟩ := exists_digitChar (hhex c hc)
    interval_cases k <;> decide
  have hplus : h.head? ≠ some '+' := by
    intro hh
    have hmem := hhex '+' (List.mem_of_mem_head? hh)
    revert hmem
    decide
  have hprefix : drop_base h = h := by
    unfold drop_base
    split
    · rename_i x cs
      have hx : is_hex_lower x = true := hhex x (by simp)
      rw [if_neg]
      rintro (rfl | rfl) <;> exact absurd hx (by decide)
    · rfl
  have hsplit : split '_' h = [h] := split_of_not_mem (not_mem_of_hex hhex (by decide))
  unfold int_base16
  simp only [hnumeral, if_neg hplus, hprefix, hsplit]
  simp [hne]

/-- A canonical text is read as a number that prints as this text. -/
theorem uuid_str_uuid_int {s : Text} (h : Canonical s) :
    ∃ n, uuid_int s = some n ∧ uuid_str n = s := by
  obtain ⟨⟨a, b, c, d, e, rfl, ha, hb, hc, hd, he, hhex⟩⟩ := exists_groups h
  -- the text has hexadecimal digits and dashes only
  have hnot : ∀ {x : Char}, is_hex_lower x = false → x ≠ '-' →
      x ∉ a ++ '-' :: (b ++ '-' :: (c ++ '-' :: (d ++ '-' :: e))) := by
    intro x hx hdash hmem
    have hmem' : x ∈ a ++ b ++ c ++ d ++ e := by
      simp only [List.mem_append, List.mem_cons] at hmem ⊢
      tauto
    exact not_mem_of_hex hhex hx hmem'
  have hlen : (a ++ b ++ c ++ d ++ e).length = 32 := by simp [ha, hb, hc, hd, he]
  have hfilter : (a ++ '-' :: (b ++ '-' :: (c ++ '-' :: (d ++ '-' :: e)))).filter (· ≠ '-') =
      a ++ b ++ c ++ d ++ e := by
    have hkeep : (a ++ b ++ c ++ d ++ e).filter (· ≠ '-') = a ++ b ++ c ++ d ++ e := by
      rw [List.filter_eq_self]
      intro x hx
      apply decide_eq_true
      rintro rfl
      exact absurd (hhex _ hx) (by decide)
    rw [← hkeep]
    simp [List.filter_append]
  generalize hs : a ++ '-' :: (b ++ '-' :: (c ++ '-' :: (d ++ '-' :: e))) = s at hnot hfilter ⊢
  -- so none of the prefixes and braces that `UUID` takes off is there
  have hurn : remove "urn:".toList s = s :=
    remove_of_not_mem (x := 'r') (by decide) (hnot (by decide) (by decide))
  have huuid : remove "uuid:".toList s = s :=
    remove_of_not_mem (x := 'u') (by decide) (hnot (by decide) (by decide))
  have hbrace : ∀ x ∈ s, (decide (x = '\x7b') || decide (x = '\x7d')) = false := by
    intro x hx
    rw [Bool.or_eq_false_iff, decide_eq_false_iff_not, decide_eq_false_iff_not]
    constructor
    · rintro rfl
      exact hnot (by decide) (by decide) hx
    · rintro rfl
      exact hnot (by decide) (by decide) hx
  have hdrop : s.dropWhile (fun c => decide (c = '\x7b') || decide (c = '\x7d')) = s := by
    cases hs : s with
    | nil => rfl
    | cons x xs => rw [List.dropWhile_cons_of_neg (by simp [hbrace x (by simp [hs])])]
  have hrdrop : s.rdropWhile (fun c => decide (c = '\x7b') || decide (c = '\x7d')) = s := by
    rw [List.rdropWhile_eq_self_iff]
    intro hne
    rw [hbrace _ (List.getLast_mem hne)]
    decide
  obtain ⟨n, hn⟩ := exists_of_hex hhex
  refine ⟨n, ?_, ?_⟩
  · unfold uuid_int
    simp only [hurn, huuid, hdrop, hrdrop, hfilter, if_pos hlen]
    rw [int_base16_hex (by intro hnil; rw [hnil] at hlen; simp at hlen) hhex, hn]
  · unfold uuid_str
    simp only [hex32_of_hex hlen hhex hn]
    rw [← hs]
    -- the dashes are put back where they were
    have hnil : ∀ {t : Text} {k : ℕ}, t.length ≤ k → t.drop k = [] :=
      fun h => List.drop_eq_nil_of_le h
    have h12 : a.drop 12 = [] := hnil (by omega)
    have h16 : a.drop 16 = [] := hnil (by omega)
    have h20 : a.drop 20 = [] := hnil (by omega)
    have hb8 : b.drop 8 = [] := hnil (by omega)
    have hb12 : b.drop 12 = [] := hnil (by omega)
    have hc8 : c.drop 8 = [] := hnil (by omega)
    simp [List.drop_append, ha, hb, hc, hd, h12, h16, h20, hb8, hb12, hc8]

theorem mem_canonical {s : Text} (h : Canonical s) {c : Char} (hc : c ∈ s) :
    c = '-' ∨ is_hex_lower c = true := by
  obtain ⟨⟨a, b, c', d, e, rfl, -, -, -, -, -, hhex⟩⟩ := exists_groups h
  have hcase : c = '-' ∨ c ∈ a ++ b ++ c' ++ d ++ e := by
    simp only [List.mem_append, List.mem_cons] at hc ⊢
    tauto
  exact hcase.imp id (hhex c)

theorem lower_of_canonical {s : Text} (h : Canonical s) : lower s = s := by
  have hlower : ∀ c ∈ s, c.toLower = c := by
    intro c hc
    rcases mem_canonical h hc with rfl | hhex
    · decide
    · obtain ⟨k, hk, rfl⟩ := exists_digitChar hhex
      interval_cases k <;> decide
  rw [lower, List.map_congr_left hlower, List.map_id']

theorem is_hex_lower_toLower {c : Char} (h : is_hex c = true) : is_hex_lower c.toLower = true := by
  have hlt : c.toNat < 128 := by
    unfold is_hex hex_digit at h
    have hle : ∀ d : Char, d.toNat < 128 → c ≤ d → c.toNat < 128 :=
      fun d hd hcd => Nat.lt_of_le_of_lt (show c.toNat ≤ d.toNat from hcd) hd
    split_ifs at h with h1 h2 h3
    · exact hle '9' (by decide) (by simp_all)
    · exact hle 'f' (by decide) (by simp_all)
    · exact hle 'F' (by decide) (by simp_all)
    · simp at h
  have hall : ∀ n < 128, is_hex (Char.ofNat n) = true → is_hex_lower (Char.ofNat n).toLower = true := by
    decide
  have := hall c.toNat hlt
  rw [Char.ofNat_toNat] at this
  exact this h

/-- What the sender's pattern lets through is canonical in lower case. -/
theorem canonical_lower {s : Text} (h : uuid_re s = true) : Canonical (lower s) :=
  fullmatch_map Char.toLower (forall₂_uuid_pattern Char.toLower rfl
    (fun _ h => is_hex_lower_toLower h)
    (by
      intro c hc
      refine is_hex_lower_toLower ?_
      simp only [Bool.and_eq_true, decide_eq_true_eq] at hc
      have hdigit : '0' ≤ c ∧ c ≤ '9' :=
        ⟨Char.le_trans (by decide) hc.1, Char.le_trans hc.2 (by decide)⟩
      simp [is_hex, hex_digit, hdigit])
    (by
      intro c hc
      rw [decide_eq_true_eq] at hc
      change c ∈ ['8', '9', 'a', 'b', 'A', 'B'] at hc
      simp only [List.mem_cons, List.not_mem_nil, or_false] at hc
      rcases hc with rfl | rfl | rfl | rfl | rfl | rfl <;> decide)) h

theorem canonical_length {s : Text} (h : Canonical s) : s.length = 36 := by
  obtain ⟨⟨a, b, c, d, e, rfl, ha, hb, hc, hd, he, -⟩⟩ := exists_groups h
  simp [ha, hb, hc, hd, he]

/-! ## Numbered UUIDs

Runs on fixed inputs need UUIDs that are different from each other. -/

/-- The last group of the `n`th UUID. -/
def node (n : ℕ) : Text :=
  List.replicate (12 - (to_hex (n % 16 ^ 12)).length) '0' ++ to_hex (n % 16 ^ 12)

theorem node_length (n : ℕ) : (node n).length = 12 := by
  have hle : (to_hex (n % 16 ^ 12)).length ≤ 12 :=
    (to_hex_length_le (by decide)).mpr (Nat.mod_lt _ (by decide))
  rw [node, List.length_append, List.length_replicate]
  omega

theorem mem_node {n : ℕ} {c : Char} (hc : c ∈ node n) : is_hex_lower c = true := by
  rcases List.mem_append.mp hc with h | h
  · rw [(List.mem_replicate.mp h).2]
    decide
  · exact mem_to_hex h

theorem node_injective {m n : ℕ} (hm : m < 16 ^ 12) (hn : n < 16 ^ 12) (h : node m = node n) :
    m = n := by
  have hread : ∀ k, k < 16 ^ 12 → of_hex (node k) = some k := by
    intro k hk
    rw [node, of_hex_replicate_zero, of_hex_to_hex, Nat.mod_eq_of_lt hk]
  have := hread m hm
  rw [h, hread n hn] at this
  exact (Option.some.inj this).symm

/-- As many UUIDs as a run needs, all different. -/
def Uuid4.nth (n : ℕ) : Uuid4 where
  text := "00000000-0000-4000-8000-".toList ++ node n
  canonical := by
    have hnode : fullmatch (List.replicate 12 is_hex_lower) (node n) = true := by
      rw [← node_length n]
      exact fullmatch_replicate_of (fun c hc => mem_node hc)
    have hpattern : uuid_pattern is_hex_lower (· = '4') (fun c => c ∈ "89ab".toList) =
        (uuid_pattern is_hex_lower (· = '4') (fun c => c ∈ "89ab".toList)).take 24
          ++ List.replicate 12 is_hex_lower := rfl
    rw [hpattern]
    exact fullmatch_append_of hnode (by decide)

theorem Uuid4.nth_text_injective {m n : ℕ} (hm : m < 16 ^ 12) (hn : n < 16 ^ 12)
    (h : (Uuid4.nth m).text = (Uuid4.nth n).text) : m = n :=
  node_injective hm hn (List.append_cancel_left h)

end F2bguard.Uuid
