/-
What `enumerate_permanent_jails` (`sender.py`) makes of Fail2Ban's answers.

A line of `banip --with-time` is a ticket when it matches `_BAN_WITH_TIME` (`Matches`, read off the
pattern; `ban_with_time_iff`) with an address that `canonical_ip` accepts. An answer of tickets
gives the addresses of the permanent ones, in order, unless one repeats; any other answer raises,
and so does the whole enumeration. The only tickets that are not taken as they are have a duration
of more digits than `int` converts (`extract_permanent_ips_iff`).
-/
import F2bguard.SenderConfig

set_option autoImplicit false

namespace F2bguard.Sender

open F2bguard.PyText F2bguard.PyJson F2bguard.Claims

/-! ## The pattern

The regular expression as a grammar: which texts it matches, and what its groups are. Nothing is
said about how a matcher goes about it. -/

/-- `\s+` -/
def Spaces (s : Text) : Prop := s ≠ [] ∧ ∀ c ∈ s, is_space c = true

/-- `\S+` -/
def Solid (s : Text) : Prop := s ≠ [] ∧ ∀ c ∈ s, is_space c = false

/-- `\d+` -/
def Digits (s : Text) : Prop := s ≠ [] ∧ ∀ c ∈ s, (decimal c).isSome = true

/-- `-?\d+` -/
def Duration (s : Text) : Prop := ∃ sign digits, s = sign ++ digits ∧ (sign = [] ∨ sign = ['-']) ∧ Digits digits

/-- A character of a date: `\d`, or the one in the pattern. -/
def AtShape (p c : Char) : Prop := if p = 'd' then (decimal c).isSome = true else c = p

/-- `\d{4}-\d{2}-\d{2} \d{2}:\d{2}:\d{2}` -/
def Date (s : Text) : Prop := List.Forall₂ AtShape "dddd-dd-dd dd:dd:dd".toList s

/-- `_BAN_WITH_TIME` with its groups `ip` and `duration`. -/
inductive Matches : Text → Text → Text → Prop
  | mk {ip duration start finish : Text} {s₁ s₂ s₃ s₄ s₅ : Text} (hip : Solid ip) (h₁ : Spaces s₁)
      (hstart : Date start) (h₂ : Spaces s₂) (h₃ : Spaces s₃) (hduration : Duration duration)
      (h₄ : Spaces s₄) (h₅ : Spaces s₅) (hfinish : Date finish) :
      Matches (ip ++ (s₁ ++ '\t' :: (start ++ (s₂ ++ '+' :: (s₃ ++ (duration ++ (s₄ ++
        '=' :: (s₅ ++ finish)))))))) ip duration

/-! ## Taking all that matches

The scanner takes as much as it can of each part. It misses no match by that, because the part
that follows cannot start with a character the part before it could have taken. -/

/-- The text does not start with a character of the class. -/
def Stops (p : Char → Bool) (s : Text) : Prop := ∀ c, s.head? = some c → p c = false

theorem takeWhile_stops {p : Char → Bool} {xs rest : Text} (hxs : ∀ c ∈ xs, p c = true)
    (hrest : Stops p rest) : (xs ++ rest).takeWhile p = xs ∧ (xs ++ rest).dropWhile p = rest := by
  rw [List.takeWhile_append_of_pos hxs, List.dropWhile_append_of_pos hxs]
  cases rest with
  | nil => exact ⟨List.append_nil xs, rfl⟩
  | cons c rest =>
    have hc := hrest c rfl
    rw [List.takeWhile_cons_of_neg (by rw [hc]; decide), List.dropWhile_cons_of_neg (by rw [hc]; decide),
      List.append_nil]
    exact ⟨rfl, rfl⟩

theorem stops_dropWhile (p : Char → Bool) (s : Text) : Stops p (s.dropWhile p) := by
  intro c hc
  have hhead := List.head?_dropWhile_not p s
  rw [hc] at hhead
  exact hhead

theorem mem_takeWhile {p : Char → Bool} {s : Text} : ∀ c ∈ s.takeWhile p, p c = true :=
  fun _ hc => List.mem_takeWhile_imp hc

theorem scan_spaces_iff {s rest : Text} :
    scan_spaces s = some rest ↔ ∃ spaces, s = spaces ++ rest ∧ Spaces spaces ∧ Stops is_space rest := by
  unfold scan_spaces
  constructor
  · intro h
    split at h
    · cases h
    · rename_i hne
      cases h
      exact ⟨_, List.takeWhile_append_dropWhile.symm, ⟨hne, mem_takeWhile⟩, stops_dropWhile _ _⟩
  · rintro ⟨spaces, rfl, ⟨hne, hall⟩, hstops⟩
    obtain ⟨htake, hdrop⟩ := takeWhile_stops hall hstops
    rw [htake, hdrop, if_neg hne]

theorem scan_spaces_tab_iff {s rest : Text} : scan_spaces_tab s = some rest ↔
    ∃ spaces, s = spaces ++ '\t' :: rest ∧ Spaces spaces ∧ Stops is_space rest := by
  unfold scan_spaces_tab
  dsimp only
  constructor
  · intro h
    split at h
    · rename_i hspaces
      obtain ⟨hlen, hlast⟩ := hspaces
      cases h
      obtain ⟨spaces, hsplit⟩ := List.getLast?_eq_some_iff.mp hlast
      -- the greedy run gives back its last tab
      have hs := @List.takeWhile_append_dropWhile _ is_space s
      refine ⟨spaces, ?_, ⟨?_, fun c hc => ?_⟩, stops_dropWhile _ _⟩
      · rw [List.append_cons, ← hsplit]
        exact hs.symm
      · rintro rfl
        rw [hsplit] at hlen
        exact absurd hlen (by decide)
      · refine mem_takeWhile (s := s) c ?_
        rw [hsplit]
        exact List.mem_append_left _ hc
    · cases h
  · rintro ⟨spaces, rfl, ⟨hne, hall⟩, hstops⟩
    have hall' : ∀ c ∈ spaces ++ ['\t'], is_space c = true := by
      intro c hc
      rcases List.mem_append.mp hc with hc | hc
      · exact hall c hc
      · rw [List.mem_singleton.mp hc]
        decide
    obtain ⟨htake, hdrop⟩ := takeWhile_stops hall' hstops
    rw [List.append_cons, htake, hdrop, if_pos]
    refine ⟨?_, List.getLast?_concat⟩
    rw [List.length_append, List.length_singleton]
    have := List.length_pos_iff.mpr hne
    omega

theorem scan_char_iff {c : Char} {s rest : Text} : scan_char c s = some rest ↔ s = c :: rest := by
  unfold scan_char
  cases s with
  | nil => exact ⟨fun h => (by cases h), fun h => (by cases h)⟩
  | cons d s =>
    constructor
    · intro h
      split at h
      · rename_i hd
        cases h
        cases hd
        rfl
      · cases h
    · intro h
      cases h
      exact if_pos rfl

theorem at_shape_iff (p c : Char) :
    (if p = 'd' then (decimal c).isSome else decide (c = p)) = true ↔ AtShape p c := by
  unfold AtShape
  split
  · rfl
  · exact decide_eq_true_iff

/-- As many characters as the shape has, each as the shape says. -/
theorem zip_all_iff {shape s : Text} (h : shape.length ≤ s.length) :
    ((shape.zip s).all (fun (p, c) => if p = 'd' then (decimal c).isSome else c = p)) = true ↔
      List.Forall₂ AtShape shape (s.take shape.length) := by
  induction shape generalizing s with
  | nil => exact iff_of_true rfl .nil
  | cons p shape ih =>
    cases s with
    | nil => exact absurd h (by simp)
    | cons c s =>
      rw [List.length_cons, List.length_cons] at h
      rw [List.zip_cons_cons, List.all_cons, Bool.and_eq_true, ih (by omega), List.length_cons,
        List.take_succ_cons, List.forall₂_cons]
      exact and_congr_left (fun _ => at_shape_iff p c)

theorem scan_date_iff {s rest : Text} :
    scan_date s = some rest ↔ ∃ date, s = date ++ rest ∧ Date date := by
  unfold scan_date Date
  generalize "dddd-dd-dd dd:dd:dd".toList = shape
  dsimp only
  constructor
  · intro h
    split at h
    · cases h
    · rename_i hlen
      split at h
      · rename_i hall
        cases h
        exact ⟨s.take shape.length, (List.take_append_drop _ _).symm, (zip_all_iff (not_lt.mp hlen)).mp hall⟩
      · cases h
  · rintro ⟨date, rfl, hdate⟩
    have hlen := hdate.length_eq
    have hle : shape.length ≤ (date ++ rest).length := by
      rw [hlen, List.length_append]
      omega
    have htake : (date ++ rest).take shape.length = date := by
      rw [hlen, List.take_left]
    rw [if_neg (not_lt.mpr hle), if_pos ((zip_all_iff hle).mpr (by rwa [htake])), hlen, List.drop_left]

theorem Digits.head {digits : Text} (h : Digits digits) (rest : Text) :
    ∃ c, (digits ++ rest).head? = some c ∧ (decimal c).isSome = true := by
  obtain ⟨c, digits, rfl⟩ := List.exists_cons_of_ne_nil h.1
  exact ⟨c, rfl, h.2 c List.mem_cons_self⟩

theorem scan_duration_iff {s duration rest : Text} : scan_duration s = some (duration, rest) ↔
    s = duration ++ rest ∧ Duration duration ∧ Stops (fun c => (decimal c).isSome) rest := by
  unfold scan_duration
  dsimp only
  constructor
  · intro h
    by_cases hminus : s.head? = some '-'
    · obtain ⟨t, rfl⟩ := List.head?_eq_some_iff.mp hminus
      rw [if_pos hminus, List.length_singleton, List.drop_one, List.tail_cons] at h
      split at h
      · cases h
      · rename_i hrun
        cases h
        refine ⟨?_, ⟨['-'], _, rfl, .inr rfl, hrun, mem_takeWhile⟩, stops_dropWhile _ _⟩
        rw [List.append_assoc, List.takeWhile_append_dropWhile, List.singleton_append]
    · rw [if_neg hminus, List.length_nil, List.drop_zero] at h
      split at h
      · cases h
      · rename_i hrun
        cases h
        refine ⟨?_, ⟨[], _, rfl, .inl rfl, hrun, mem_takeWhile⟩, stops_dropWhile _ _⟩
        rw [List.nil_append, List.takeWhile_append_dropWhile]
  · rintro ⟨rfl, ⟨sign, digits, rfl, hsign, hdigits⟩, hstops⟩
    obtain ⟨htake, hdrop⟩ := takeWhile_stops hdigits.2 hstops
    rw [List.append_assoc]
    rcases hsign with rfl | rfl
    · -- a digit is no sign
      obtain ⟨c, hc, hdigit⟩ := hdigits.head rest
      have hminus : ¬ ([] ++ (digits ++ rest)).head? = some '-' := by
        rw [List.nil_append, hc]
        intro heq
        cases heq
        exact absurd hdigit (by decide)
      rw [if_neg hminus, List.length_nil, List.drop_zero, List.nil_append, htake, hdrop,
        if_neg hdigits.1]
    · have hminus : (['-'] ++ (digits ++ rest)).head? = some '-' := rfl
      rw [if_pos hminus, List.drop_left, htake, hdrop, if_neg hdigits.1]

/-! ## The line as a whole

Scanner and grammar agree part by part, and so on the line. -/

/-- A digit is no white space. -/
theorem not_space_of_digit {c : Char} (h : (decimal c).isSome = true) : is_space c = false := by
  have hzeros : ∀ z ∈ decimal_zeros, z = 0x30 ∨ (0xa0 < z ∧ z ≤ 0x1680 - 10) ∨
      (0x1680 < z ∧ z ≤ 0x2000 - 10) ∨ 0x3000 < z := by decide
  unfold decimal at h
  rw [Option.isSome_map, List.find?_isSome] at h
  obtain ⟨z, hz, hc⟩ := h
  have hc := of_decide_eq_true hc
  have hz := hzeros z hz
  unfold is_space
  simp only [Bool.or_eq_false_iff, Bool.and_eq_false_iff, decide_eq_false_iff_not, beq_eq_false_iff_ne]
  omega

theorem stops_cons {p : Char → Bool} {c : Char} (h : p c = false) (rest : Text) :
    Stops p (c :: rest) := by
  intro d hd
  cases hd
  exact h

theorem Date.stops {date : Text} (h : Date date) (rest : Text) : Stops is_space (date ++ rest) := by
  obtain ⟨c, date, hc, -, rfl⟩ := List.forall₂_cons_left_iff.mp h
  exact stops_cons (not_space_of_digit hc) _

theorem Duration.stops {duration : Text} (h : Duration duration) (rest : Text) :
    Stops is_space (duration ++ rest) := by
  obtain ⟨sign, digits, rfl, hsign, hdigits⟩ := h
  rcases hsign with rfl | rfl
  · intro c hc
    obtain ⟨d, hd, hdigit⟩ := hdigits.head rest
    rw [List.nil_append, hd] at hc
    cases hc
    exact not_space_of_digit hdigit
  · exact stops_cons (by decide) _

theorem Spaces.stops {spaces : Text} (h : Spaces spaces) {p : Char → Bool}
    (hp : ∀ c, is_space c = true → p c = false) (rest : Text) : Stops p (spaces ++ rest) := by
  obtain ⟨c, spaces, rfl⟩ := List.exists_cons_of_ne_nil h.1
  exact stops_cons (hp c (h.2 c List.mem_cons_self)) _

theorem ban_with_time_iff {line ip duration : Text} :
    ban_with_time line = some (ip, duration) ↔ Matches line ip duration := by
  unfold ban_with_time
  simp only [bind, Option.bind_eq_some_iff, Option.guard_eq_some', scan_spaces_tab_iff, scan_spaces_iff,
    scan_date_iff, scan_char_iff]
  constructor
  · rintro ⟨-, hne, t₁, ⟨s₁, htail, h₁, -⟩, t₂, ⟨start, rfl, hstart⟩, t₃, ⟨s₂, rfl, h₂, -⟩, t₄, rfl,
      t₅, ⟨s₃, rfl, h₃, -⟩, ⟨duration', t₆⟩, hscan, t₇, ⟨s₄, hfour, h₄, -⟩, t₈, rfl, t₉, ⟨s₅, rfl, h₅, -⟩,
      t₁₀, ⟨finish, rfl, hfinish⟩, -, rfl, hresult⟩
    obtain ⟨rfl, hduration, -⟩ := scan_duration_iff.mp hscan
    dsimp only at hfour
    subst hfour
    cases hresult
    -- the address is everything up to the first space
    have hline := @List.takeWhile_append_dropWhile _ (fun c => !is_space c) line
    rw [htail, List.append_nil] at hline
    have hip : Solid (line.takeWhile (fun c => !is_space c)) :=
      ⟨hne, fun c hc => by simpa using mem_takeWhile c hc⟩
    have hmatch := Matches.mk hip h₁ hstart h₂ h₃ hduration h₄ h₅ hfinish
    rw [hline] at hmatch
    exact hmatch
  · rintro ⟨hip, h₁, hstart, h₂, h₃, hduration, h₄, h₅, hfinish⟩
    rename_i start finish s₁ s₂ s₃ s₄ s₅
    have hsolid : ∀ c ∈ ip, (!is_space c) = true := fun c hc => by rw [hip.2 c hc]; rfl
    -- each run stops where the next one starts, so the split is the one of the pattern
    have hspace : ∀ c, is_space c = true → (!is_space c) = false := fun c hc => by rw [hc]; rfl
    have hdigit : ∀ c, is_space c = true → (decimal c).isSome = false := by
      intro c hc
      cases h : (decimal c).isSome with
      | false => rfl
      | true =>
        rw [not_space_of_digit h] at hc
        cases hc
    have hend : finish = finish ++ [] := (List.append_nil finish).symm
    obtain ⟨htake, hdrop⟩ := takeWhile_stops hsolid (h₁.stops hspace ('\t' :: (start ++ (s₂ ++ '+' ::
      (s₃ ++ (duration ++ (s₄ ++ '=' :: (s₅ ++ finish))))))))
    rw [htake, hdrop]
    refine ⟨(), hip.1, _, ⟨s₁, rfl, h₁, hstart.stops _⟩, _, ⟨start, rfl, hstart⟩, _,
      ⟨s₂, rfl, h₂, stops_cons (by decide) _⟩, _, rfl, _, ⟨s₃, rfl, h₃, hduration.stops _⟩,
      (duration, s₄ ++ '=' :: (s₅ ++ finish)), scan_duration_iff.mpr ⟨rfl, hduration, h₄.stops hdigit _⟩,
      _, ⟨s₄, rfl, h₄, stops_cons (by decide) _⟩, _, rfl, _, ⟨s₅, rfl, h₅, ?_⟩, _,
      ⟨finish, hend, hfinish⟩, (), rfl, rfl⟩
    rw [hend]
    exact hfinish.stops []

/-! ## The answer of a jail

Every line is a ticket or one is not. In the first case the loop collects the permanent addresses,
in the second it ends at the line at the latest. -/

/-- A ticket: a line of the pattern whose address is accepted, with the canonical address and the
text of the duration. -/
def Ticket (line : Text) (ticket : Text × Text) : Prop :=
  ∃ ip, Matches line ip ticket.2 ∧ canonical_ip ip = .ok ticket.1

/-- The addresses of the permanent tickets. -/
def permanent (tickets : List (Text × Text)) : List Text :=
  (tickets.filter (fun ticket => duration_value ticket.2 = -1)).map Prod.fst

/-- The duration has more digits than `int` converts. -/
def Overlong (ticket : Text × Text) : Prop := int_max_str_digits < (duration_digits ticket.2).2.length

instance : DecidablePred Overlong := fun _ => inferInstanceAs (Decidable (_ < _))

theorem add_ban_ticket {line : Text} {ticket : Text × Text} (h : Ticket line ticket) (result : List Text) :
    add_ban result line = if Overlong ticket then .error .value_error
      else .ok (result ++ permanent [ticket]) := by
  obtain ⟨ip, hmatch, hip⟩ := h
  unfold add_ban
  rw [ban_with_time_iff.mpr hmatch]
  dsimp only
  rw [hip]
  dsimp only
  unfold int_duration permanent
  by_cases hlong : Overlong ticket
  · rw [if_pos hlong, if_pos (show int_max_str_digits < (duration_digits ticket.2).2.length from hlong)]
  · rw [if_neg hlong, if_neg (show ¬ int_max_str_digits < (duration_digits ticket.2).2.length from hlong)]
    by_cases hpermanent : duration_value ticket.2 = -1
    · simp [hpermanent]
    · simp [hpermanent]

/-- A line that is no ticket ends the loop. -/
theorem add_ban_refused {line : Text} (h : ∀ ticket, ¬ Ticket line ticket) (result : List Text) :
    ∃ message, add_ban result line = .error (.enumeration_error message) := by
  unfold add_ban
  cases hmatch : ban_with_time line with
  | none => exact ⟨_, rfl⟩
  | some groups =>
    obtain ⟨ip, duration⟩ := groups
    dsimp only
    cases hip : canonical_ip ip with
    | error e => exact ⟨_, rfl⟩
    | ok canonical => exact absurd ⟨ip, ban_with_time_iff.mp hmatch, hip⟩ (h (canonical, duration))

theorem permanent_cons (ticket : Text × Text) (tickets : List (Text × Text)) :
    permanent (ticket :: tickets) = permanent [ticket] ++ permanent tickets := by
  rw [permanent, permanent, permanent, ← List.map_append, ← List.filter_append, List.singleton_append]

section lines

variable {lines : List Text} {tickets : List (Text × Text)}

theorem add_bans_tickets (h : List.Forall₂ Ticket lines tickets) (hshort : ∀ ticket ∈ tickets, ¬ Overlong ticket) :
    ∀ result : List Text, lines.foldlM add_ban result = .ok (result ++ permanent tickets) := by
  induction h with
  | nil =>
    intro result
    rw [List.foldlM_nil, permanent, List.filter_nil, List.map_nil, List.append_nil]
    rfl
  | @cons line ticket lines tickets hticket _ ih =>
    intro result
    rw [List.forall_mem_cons] at hshort
    rw [List.foldlM_cons, add_ban_ticket hticket, if_neg hshort.1, permanent_cons ticket tickets,
      ← List.append_assoc]
    exact ih hshort.2 _

theorem add_bans_overlong (h : List.Forall₂ Ticket lines tickets) (hlong : ∃ ticket ∈ tickets, Overlong ticket) :
    ∀ result : List Text, lines.foldlM add_ban result = .error .value_error := by
  induction h with
  | nil =>
    obtain ⟨ticket, hmem, -⟩ := hlong
    cases hmem
  | @cons line ticket lines tickets hticket _ ih =>
    intro result
    rw [List.foldlM_cons, add_ban_ticket hticket]
    split
    · rfl
    · rename_i hshort
      obtain ⟨other, hmem, hother⟩ := hlong
      rcases List.mem_cons.mp hmem with rfl | hmem
      · exact absurd hother hshort
      · exact ih ⟨other, hmem, hother⟩ _

/-- One line that is no ticket, and there is no result. -/
theorem add_bans_refused (h : ∃ line ∈ lines, ∀ ticket, ¬ Ticket line ticket) :
    ∀ result : List Text, ∃ failure, lines.foldlM add_ban result = .error failure := by
  induction lines with
  | nil =>
    obtain ⟨line, hmem, -⟩ := h
    cases hmem
  | cons line lines ih =>
    intro result
    rw [List.foldlM_cons]
    by_cases hticket : ∃ ticket, Ticket line ticket
    · obtain ⟨ticket, hticket⟩ := hticket
      rw [add_ban_ticket hticket]
      split
      · exact ⟨_, rfl⟩
      · obtain ⟨other, hmem, hother⟩ := h
        rcases List.mem_cons.mp hmem with rfl | hmem
        · exact absurd hticket (hother ticket)
        · exact ih ⟨other, hmem, hother⟩ _
    · obtain ⟨message, hrefused⟩ := add_ban_refused (fun ticket h => hticket ⟨ticket, h⟩) result
      rw [hrefused]
      exact ⟨_, rfl⟩

end lines

/-- All lines are tickets, or one of them is not. -/
theorem tickets_or (lines : List Text) : (∃ tickets, List.Forall₂ Ticket lines tickets) ∨
    ∃ line ∈ lines, ∀ ticket, ¬ Ticket line ticket := by
  induction lines with
  | nil => exact .inl ⟨[], .nil⟩
  | cons line lines ih =>
    by_cases hticket : ∃ ticket, Ticket line ticket
    · obtain ⟨ticket, hticket⟩ := hticket
      rcases ih with ⟨tickets, h⟩ | ⟨other, hmem, h⟩
      · exact .inl ⟨ticket :: tickets, .cons hticket h⟩
      · exact .inr ⟨other, List.mem_cons_of_mem line hmem, h⟩
    · exact .inr ⟨line, List.mem_cons_self, fun ticket h => hticket ⟨ticket, h⟩⟩

section output

variable {output : Text} (hblank : strip output ≠ [])
include hblank

theorem extract_tickets {tickets : List (Text × Text)} (h : List.Forall₂ Ticket (splitlines output) tickets)
    (hshort : ∀ ticket ∈ tickets, ¬ Overlong ticket) : _extract_permanent_ips output =
      if ¬ (permanent tickets).Nodup then enumeration_error "fail2ban returned duplicate IPs"
      else .ok (permanent tickets) := by
  rw [_extract_permanent_ips, if_neg hblank, add_bans_tickets h hshort, List.nil_append]
  rfl

theorem extract_overlong {tickets : List (Text × Text)} (h : List.Forall₂ Ticket (splitlines output) tickets)
    (hlong : ∃ ticket ∈ tickets, Overlong ticket) :
    _extract_permanent_ips output = .error .value_error := by
  rw [_extract_permanent_ips, if_neg hblank, add_bans_overlong h hlong]
  rfl

theorem extract_refused (h : ∃ line ∈ splitlines output, ∀ ticket, ¬ Ticket line ticket) :
    ∃ failure, _extract_permanent_ips output = .error failure := by
  obtain ⟨failure, hfailure⟩ := add_bans_refused h []
  rw [_extract_permanent_ips, if_neg hblank, hfailure]
  exact ⟨failure, rfl⟩

end output

/-- What `_extract_permanent_ips` should make of an answer: the permanent addresses of its
tickets, an `EnumerationError` where one repeats, and some exception where a line is no ticket. -/
structure Extracted (output : Text) : Prop where
  exact : ∀ tickets, List.Forall₂ Ticket (splitlines output) tickets → (permanent tickets).Nodup →
    _extract_permanent_ips output = .ok (permanent tickets)
  duplicate : ∀ tickets, List.Forall₂ Ticket (splitlines output) tickets → ¬ (permanent tickets).Nodup →
    ∃ error, _extract_permanent_ips output = .error (.enumeration_error error)
  refused : (∃ line ∈ splitlines output, ∀ ticket, ¬ Ticket line ticket) →
    ∃ failure, _extract_permanent_ips output = .error failure

theorem extracted_iff {output : Text} (hblank : strip output ≠ []) : Extracted output ↔
    ¬ ∃ tickets, List.Forall₂ Ticket (splitlines output) tickets ∧ ∃ ticket ∈ tickets, Overlong ticket := by
  constructor
  · rintro h ⟨tickets, htickets, hlong⟩
    have hraised := extract_overlong hblank htickets hlong
    by_cases hnodup : (permanent tickets).Nodup
    · rw [h.exact tickets htickets hnodup] at hraised
      cases hraised
    · obtain ⟨error, herror⟩ := h.duplicate tickets htickets hnodup
      rw [herror] at hraised
      cases hraised
  · intro h
    have hshort : ∀ tickets, List.Forall₂ Ticket (splitlines output) tickets →
        ∀ ticket ∈ tickets, ¬ Overlong ticket :=
      fun tickets htickets ticket hmem hlong => h ⟨tickets, htickets, ticket, hmem, hlong⟩
    refine ⟨fun tickets htickets hnodup => ?_, fun tickets htickets hnodup => ?_, extract_refused hblank⟩
    · rw [extract_tickets hblank htickets (hshort tickets htickets), if_neg (not_not.mpr hnodup)]
    · rw [extract_tickets hblank htickets (hshort tickets htickets), if_pos hnodup]
      exact ⟨_, rfl⟩

/-! ## The jails

An answer counts only with the status zero, and the enumeration needs the answers of all jails. -/

/-- The claims of a jail are the permanent tickets of its answer. -/
inductive JailListed (completed : Option Completed) (jail : PermanentJail) : List EnumeratedClaim → Prop
  | blank (stdout : Text) (hcompleted : completed = some ⟨0, stdout⟩) (hblank : strip stdout = []) :
      JailListed completed jail []
  | tickets (stdout : Text) (tickets : List (Text × Text)) (hcompleted : completed = some ⟨0, stdout⟩)
      (htickets : List.Forall₂ Ticket (splitlines stdout) tickets) (hnodup : (permanent tickets).Nodup) :
      JailListed completed jail ((permanent tickets).map (fun ip => { jail := jail.name, ip }))

theorem extract_listed {output : Text} {ips : List Text} (h : _extract_permanent_ips output = .ok ips) :
    (strip output = [] ∧ ips = []) ∨ ∃ tickets, List.Forall₂ Ticket (splitlines output) tickets ∧
      (permanent tickets).Nodup ∧ ips = permanent tickets := by
  by_cases hblank : strip output = []
  · rw [_extract_permanent_ips, if_pos hblank] at h
    cases h
    exact .inl ⟨hblank, rfl⟩
  · rcases tickets_or (splitlines output) with ⟨tickets, htickets⟩ | hrefused
    · by_cases hlong : ∃ ticket ∈ tickets, Overlong ticket
      · rw [extract_overlong hblank htickets hlong] at h
        cases h
      · have hshort : ∀ ticket ∈ tickets, ¬ Overlong ticket := fun ticket hmem h => hlong ⟨ticket, hmem, h⟩
        rw [extract_tickets hblank htickets hshort] at h
        split at h
        · cases h
        · rename_i hnodup
          cases h
          exact .inr ⟨tickets, htickets, not_not.mp hnodup, rfl⟩
    · obtain ⟨failure, hfailure⟩ := extract_refused hblank hrefused
      rw [hfailure] at h
      cases h

theorem enumerate_jail_listed {completed : Option Completed} {jail : PermanentJail}
    {claims : List EnumeratedClaim} (h : enumerate_jail completed jail = .ok claims) :
    JailListed completed jail claims := by
  unfold enumerate_jail at h
  split at h
  · cases h
  · rename_i completed
    split at h
    · cases h
    · rename_i hcode
      obtain ⟨ips, hips, rfl⟩ := Store.map_eq_ok.mp h
      have hcompleted : some completed = some ⟨0, completed.stdout⟩ := by
        rw [← not_not.mp hcode]
      rcases extract_listed hips with ⟨hblank, rfl⟩ | ⟨tickets, htickets, hnodup, rfl⟩
      · exact .blank completed.stdout hcompleted hblank
      · exact .tickets completed.stdout tickets hcompleted htickets hnodup

/-- The claims are those of the jails, one jail after the other. -/
def Enumerates (config : SenderConfig) (runner : Text → Option Completed) (claims : List EnumeratedClaim) :
    Prop :=
  ∃ lists, List.Forall₂ (fun jail list => JailListed (runner jail.name) jail list) config.permanent_jails lists ∧
    claims = lists.flatten

theorem enumerate_listed {config : SenderConfig} {runner : Text → Option Completed}
    {claims : List EnumeratedClaim} (h : enumerate_permanent_jails config runner = .ok claims) :
    Enumerates config runner claims := by
  obtain ⟨lists, hlists, rfl⟩ := Store.map_eq_ok.mp h
  refine ⟨lists, ?_, rfl⟩
  clear h
  generalize config.permanent_jails = jails at hlists ⊢
  induction jails generalizing lists with
  | nil =>
    cases hlists
    exact .nil
  | cons jail jails ih =>
    rw [List.mapM_cons] at hlists
    obtain ⟨claims, hclaims, hlists⟩ := Store.bind_eq_ok.mp hlists
    obtain ⟨rest, hrest, hlists⟩ := Store.bind_eq_ok.mp hlists
    cases hlists
    exact .cons (enumerate_jail_listed hclaims) (ih rest hrest)

/-- An answer is taken exactly or refused, unless all its lines are tickets and a duration is too
long for `int`; for any jails and answers the enumeration is complete or raises. -/
theorem extract_permanent_ips_iff (output : Text) (hblank : strip output ≠ []) :
    (Extracted output ∧ ∀ config runner claims, enumerate_permanent_jails config runner = .ok claims →
      Enumerates config runner claims) ↔
      ¬ ∃ tickets, List.Forall₂ Ticket (splitlines output) tickets ∧ ∃ ticket ∈ tickets, Overlong ticket := by
  rw [← extracted_iff hblank]
  exact and_iff_left (fun _ _ _ h => enumerate_listed h)

/-! One permanent and one temporary ban, and a ban with a duration that is too long. -/

def sample_lines : List Text := [
  "203.0.113.1 \t2025-01-01 00:00:00 + -1 = 9999-12-31 23:59:59".toList,
  "2001:DB8::1 \t2025-01-01 00:00:00 + 600 = 2025-01-01 00:10:00".toList]

def sample_output : Text := sample_lines.flatMap (fun line => line ++ ['\n'])

theorem Ticket.duration_eq {line : Text} {ticket groups : Text × Text} (h : Ticket line ticket)
    (hgroups : ban_with_time line = some groups) : ticket.2 = groups.2 := by
  obtain ⟨ip, hmatch, -⟩ := h
  rw [ban_with_time_iff.mpr hmatch] at hgroups
  cases hgroups
  rfl

theorem extract_permanent_ips_iff_sample :
    _extract_permanent_ips sample_output = .ok ["203.0.113.1".toList] ∧ Extracted sample_output := by
  have hlines : splitlines sample_output = sample_lines := by decide +kernel
  have hblank : strip sample_output ≠ [] := by decide +kernel
  have hpermanent : ban_with_time "203.0.113.1 \t2025-01-01 00:00:00 + -1 = 9999-12-31 23:59:59".toList =
      some ("203.0.113.1".toList, "-1".toList) := by decide +kernel
  have htemporary : ban_with_time "2001:DB8::1 \t2025-01-01 00:00:00 + 600 = 2025-01-01 00:10:00".toList =
      some ("2001:DB8::1".toList, "600".toList) := by decide +kernel
  refine ⟨by decide +kernel, ((extract_permanent_ips_iff sample_output hblank).mpr ?_).1⟩
  rintro ⟨tickets, htickets, ticket, hmem, hlong⟩
  rw [hlines] at htickets
  obtain ⟨first, rest, hfirst, hrest, rfl⟩ := List.forall₂_cons_left_iff.mp htickets
  obtain ⟨second, others, hsecond, hothers, rfl⟩ := List.forall₂_cons_left_iff.mp hrest
  obtain rfl := List.forall₂_nil_left_iff.mp hothers
  unfold Overlong at hlong
  rcases List.mem_cons.mp hmem with rfl | hmem
  · rw [hfirst.duration_eq hpermanent] at hlong
    exact absurd hlong (by decide)
  · rw [List.mem_singleton.mp hmem, hsecond.duration_eq htemporary] at hlong
    exact absurd hlong (by decide)

theorem strip_ne_nil {s : Text} {c : Char} (hc : c ∈ s) (hsolid : is_space c = false) : strip s ≠ [] := by
  rw [strip, Ne, List.rdropWhile_eq_nil_iff]
  intro hall
  rw [← @List.takeWhile_append_dropWhile _ is_space s] at hc
  rcases List.mem_append.mp hc with hc | hc
  · rw [mem_takeWhile c hc] at hsolid
    cases hsolid
  · rw [hall c hc] at hsolid
    cases hsolid

theorem date_of_scan {s : Text} (h : scan_date s = some []) : Date s := by
  obtain ⟨date, rfl, hdate⟩ := scan_date_iff.mp h
  rwa [List.append_nil]

/-- A ban whose duration is written with `n` digits. -/
def padded_line (n : ℕ) : Text :=
  "203.0.113.1 \t2025-01-01 00:00:00 + ".toList ++ (List.replicate n '1' ++
    " = 9999-12-31 23:59:59".toList)

theorem padded_ticket {n : ℕ} (hn : 0 < n) :
    Ticket (padded_line n) ("203.0.113.1".toList, List.replicate n '1') := by
  have hspace : Spaces [' '] := ⟨List.cons_ne_nil _ _, by decide⟩
  have hdigits : Duration (List.replicate n '1') := by
    refine ⟨[], _, rfl, .inl rfl, ?_, fun c hc => ?_⟩
    · rw [Ne, List.replicate_eq_nil_iff]
      omega
    · rw [List.eq_of_mem_replicate hc]
      decide
  have hip : Solid "203.0.113.1".toList := ⟨List.cons_ne_nil _ _, by decide⟩
  have hcanonical : canonical_ip "203.0.113.1".toList = .ok "203.0.113.1".toList := by decide +kernel
  have hmatch := Matches.mk hip hspace (date_of_scan (s := "2025-01-01 00:00:00".toList) (by decide))
    hspace hspace hdigits hspace hspace (date_of_scan (s := "9999-12-31 23:59:59".toList) (by decide))
  exact ⟨_, hmatch, hcanonical⟩

theorem padded_refused {n : ℕ} (hn : int_max_str_digits < n) : ¬ Extracted (padded_line n ++ ['\n']) := by
  have hchars : ∀ c ∈ padded_line n, is_line_end c = false := by
    intro c hc
    unfold padded_line at hc
    rw [List.mem_append, List.mem_append] at hc
    rcases hc with hc | hc | hc
    · exact (by decide : ∀ c ∈ "203.0.113.1 \t2025-01-01 00:00:00 + ".toList, is_line_end c = false) c hc
    · rw [List.eq_of_mem_replicate hc]
      decide
    · exact (by decide : ∀ c ∈ " = 9999-12-31 23:59:59".toList, is_line_end c = false) c hc
  have hlines := splitlines_lines [padded_line n] (fun line hline => by
    rw [List.mem_singleton.mp hline]
    exact hchars)
  rw [List.flatMap_singleton] at hlines
  have hblank : strip (padded_line n ++ ['\n']) ≠ [] :=
    strip_ne_nil (List.mem_append_left _ (List.mem_append_left _ List.mem_cons_self)) (by decide)
  intro h
  refine (extracted_iff hblank).mp h ⟨[("203.0.113.1".toList, List.replicate n '1')], ?_,
    _, List.mem_singleton_self _, ?_⟩
  · rw [hlines]
    exact .cons (padded_ticket (by omega)) .nil
  · unfold Overlong duration_digits
    rw [if_neg]
    · rwa [List.length_replicate]
    · intro hhead
      have := List.mem_of_mem_head? hhead
      exact absurd (List.eq_of_mem_replicate this) (by decide)

theorem padded_duration_raises : ¬ Extracted (padded_line 4301 ++ ['\n']) := padded_refused (by decide)

end F2bguard.Sender
