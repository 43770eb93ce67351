/-
The whitelist that the pfSense package renders from an alias.

`f2bguard_get_alias_addresses` takes a static alias whose entries are literal hosts and
networks, normalises each and drops repetitions. The list is written to the file that the
server and the helper read. `whitelist_of_alias` follows an entry through all of it: an
address is in the index that either reader builds when an entry of the alias covers it.

PHP parses and prints addresses with `inet_pton` and `inet_ntop`. They enter as an `Inet`,
of which no more is used than that Python reads what `inet_ntop` prints.
-/
import F2bguard.Php
import F2bguard.PfHelper

set_option autoImplicit false

namespace F2bguard.Alias

open F2bguard.PyText F2bguard.Ipaddress F2bguard.Networks F2bguard.Whitelist
open F2bguard.Php hiding is_space

/-- `inet_pton` and `inet_ntop`. -/
structure Inet where
  pton : Text → Option IPAddress
  ntop : IPAddress → Text
  /-- what is printed is the address to `ipaddress` too -/
  ntop_parsed : ∀ a, ip_address (ntop a) = some a
  ntop_chars : ∀ a, ∀ c ∈ ntop a, c = '.' ∨ c = ':' ∨ is_hex_lower c = true

/-! ## Rendering

The functions of the package, in the order they call each other. Every error is a message for the
page and leaves the files as they are. -/

/-- `/^[0-9]{1,3}$/` -/
def prefix_re : Text → Bool :=
  at_end (fun s => s.all is_digit && 1 ≤ s.length && s.length ≤ 3)

/-- `f2bguard_normalize_ip_or_cidr`, `none` for `false`. A host becomes the network of its address
alone. The address keeps its host bits: the readers clear them. -/
def normalize_ip_or_cidr (inet : Inet) (value : Text) : Option Text :=
  if trim value = [] then none
  else
    match explode '/' (trim value) with
    | (host, suffix) =>
        match inet.pton host with
        | none => none
        | some packed =>
            match suffix with
            | none => some (inet.ntop packed ++ '/' :: to_dec packed.version.width)
            | some suffix =>
                if !prefix_re suffix then none
                else if packed.version.width < intval suffix then none
                else some (inet.ntop packed ++ '/' :: to_dec (intval suffix))

/-- The `address` of an alias: one text, or a list of texts. -/
inductive Addresses
  | text (raw : Text)
  | list (raw : List Text)

/-- An element of `aliases/alias`. -/
structure AliasRecord where
  name : Text
  type : Text
  address : Addresses

/-- The text between the entries is blank. -/
def Addresses.items : Addresses → List Text
  | .text raw => preg_split Php.is_space (trim raw)
  | .list raw => preg_split Php.is_space (trim (implode ' ' raw))

/-- The first alias of the name. What is no array is passed over. -/
def find_alias (aliases : List (Option AliasRecord)) (alias_name : Text) : Option AliasRecord :=
  (aliases.filterMap id).find? (fun entry => entry.name = alias_name)

/-- The message about an entry. -/
def entry_error (item : Text) : Text :=
  "Alias entry \"".toList ++ htmlspecialchars item ++
    "\" is not a literal IP or CIDR; whitelist update refused.".toList

/-- The loop over the entries. One that is not literal refuses the whole alias, a repetition is
dropped. -/
def resolve (inet : Inet) : List Text → List Text → Except Text (List Text)
  | resolved, [] => .ok resolved
  | resolved, item :: items =>
      match normalize_ip_or_cidr inet item with
      | none => .error (entry_error item)
      | some entry => resolve inet (if entry ∈ resolved then resolved else resolved ++ [entry]) items

/-- `f2bguard_get_alias_addresses`, with its error. No alias selected is an empty whitelist, while
an alias that is gone is an error: it may have protected something. Aliases that pfSense resolves
by itself are refused by their type. -/
def get_alias_addresses (inet : Inet) (aliases : List (Option AliasRecord)) (alias_name : Text) :
    Except Text (List Text) :=
  if alias_name = [] then .ok []
  else
    match find_alias aliases alias_name with
    | none =>
        .error "The selected pfSense alias no longer exists; whitelist update refused.".toList
    | some entry =>
        if strtolower entry.type ≠ "host".toList ∧ strtolower entry.type ≠ "network".toList then
          .error "The selected alias is dynamic or not an IP/network alias.".toList
        else resolve inet [] entry.address.items

/-- What `f2bguard_resync_config` writes to the whitelist. Without entries the file is empty. -/
def resync_whitelist (whitelist : List Text) : Text :=
  implode '\n' whitelist ++ (if whitelist.length ≠ 0 then ['\n'] else [])

/-- What `f2bguard_refresh_whitelist` writes. Without entries the file is one blank line, which
the readers skip. -/
def refresh_whitelist (entries : List Text) : Text := implode '\n' entries ++ ['\n']

/-! ## What an entry covers

The meaning of an alias, said without the functions above: an entry stands for the addresses of
its family that agree with it on a number of leading bits. -/

/-- An entry of an alias: a host, or a network with a prefix of at most three digits. -/
inductive Entry (inet : Inet) : Text → IPAddress → ℕ → Prop
  | host {text : Text} {a : IPAddress} (hne : text ≠ []) (hslash : '/' ∉ text)
      (ha : inet.pton text = some a) : Entry inet text a a.version.width
  | network {text digits : Text} {a : IPAddress} (hslash : '/' ∉ text) (ha : inet.pton text = some a)
      (hdigits : digits.all is_digit) (hne : digits ≠ []) (hlen : digits.length ≤ 3)
      (hle : of_dec digits ≤ a.version.width) :
      Entry inet (text ++ '/' :: digits) a (of_dec digits)

/-- The entry covers an address of its family that agrees with it on the bits of the prefix. -/
def Covers (inet : Inet) (item : Text) (x : IPAddress) : Prop :=
  ∃ a len, Entry inet (trim item) a len ∧ a.version = x.version ∧
    a.toNat / 2 ^ (a.version.width - len) = x.toNat / 2 ^ (a.version.width - len)

/-! ## An entry and its network

An accepted entry is read again by Python, with its host bits cleared, and holds what the entry
covers. -/

theorem trim_getLast (s : Text) : (trim s).getLast? ≠ some '\n' := by
  intro h
  have hne : trim s ≠ [] := by
    intro hnil
    rw [hnil] at h
    cases h
  have hlast := List.rdropWhile_last_not is_trimmed (s.dropWhile is_trimmed) hne
  rw [List.getLast?_eq_some_getLast hne] at h
  have heq : (trim s).getLast hne = '\n' := Option.some.inj h
  exact hlast (by rw [show ((s.dropWhile is_trimmed).rdropWhile is_trimmed).getLast hne = '\n' from heq]; decide)

theorem prefix_re_iff {s : Text} (hlast : s.getLast? ≠ some '\n') :
    prefix_re s = true ↔ s.all is_digit ∧ s ≠ [] ∧ s.length ≤ 3 := by
  have hlength : 1 ≤ s.length ↔ s ≠ [] := List.length_pos_iff
  rw [prefix_re, at_end_of_last hlast, Bool.and_eq_true, Bool.and_eq_true, decide_eq_true_eq, decide_eq_true_eq, hlength, and_assoc]

theorem entry_host_iff {inet : Inet} {s : Text} (hne : s ≠ []) (hslash : '/' ∉ s) (a : IPAddress)
    (len : ℕ) : Entry inet s a len ↔ inet.pton s = some a ∧ len = a.version.width := by
  constructor
  · intro h
    cases h with
    | host _ _ ha => exact ⟨ha, rfl⟩
    | network => exact absurd (List.mem_append_right _ List.mem_cons_self) hslash
  · rintro ⟨ha, rfl⟩
    exact .host hne hslash ha

theorem entry_network_iff {inet : Inet} {host suffix : Text} (hslash : '/' ∉ host)
    (hsuffix : suffix.getLast? ≠ some '\n') (a : IPAddress) (len : ℕ) :
    Entry inet (host ++ '/' :: suffix) a len ↔ inet.pton host = some a ∧
      prefix_re suffix = true ∧ intval suffix ≤ a.version.width ∧ len = intval suffix := by
  rw [prefix_re_iff hsuffix]
  constructor
  · intro h
    generalize htext : host ++ '/' :: suffix = text at h
    cases h with
    | host _ hno => exact absurd (htext ▸ List.mem_append_right _ List.mem_cons_self) hno
    | @network text digits _ hno ha hdigits hnil hlen hle =>
      -- both texts are cut at their first slash
      have hcut := congrArg (explode '/') htext
      rw [explode_append hslash, explode_append hno] at hcut
      obtain ⟨rfl, hsome⟩ := Prod.mk.inj hcut
      cases hsome
      rw [intval_short hdigits (by omega)]
      exact ⟨ha, ⟨hdigits, hnil, hlen⟩, hle, rfl⟩
  · rintro ⟨ha, ⟨hdigits, hnil, hlen⟩, hle, rfl⟩
    rw [intval_short hdigits (by omega)] at hle ⊢
    exact .network hslash ha hdigits hnil hlen hle

theorem not_entry_nil {inet : Inet} {a : IPAddress} {len : ℕ} : ¬ Entry inet [] a len := by
  intro h
  generalize hs : ([] : Text) = t at h
  cases h with
  | host hne => exact hne hs.symm
  | network => exact absurd hs.symm (List.append_ne_nil_of_right_ne_nil _ (List.cons_ne_nil _ _))

/-- What is accepted is an entry, and it is written as its address and its prefix. -/
theorem normalize_eq_some {inet : Inet} {value rendered : Text} :
    normalize_ip_or_cidr inet value = some rendered ↔
      ∃ a len, Entry inet (trim value) a len ∧ rendered = inet.ntop a ++ '/' :: to_dec len := by
  have hlast := trim_getLast value
  unfold normalize_ip_or_cidr
  generalize trim value = s at hlast ⊢
  split
  · rename_i hnil
    refine iff_of_false (fun h => (by cases h)) ?_
    rintro ⟨a, len, hentry, -⟩
    rw [hnil] at hentry
    exact not_entry_nil hentry
  rename_i hne
  rcases explode_cases '/' s with ⟨hslash, hexplode⟩ | ⟨host, suffix, hslash, rfl, hexplode⟩
  · -- an address, with the prefix of its family
    rw [hexplode]
    dsimp only
    simp only [entry_host_iff hne hslash]
    cases hpton : inet.pton s with
    | none =>
      refine iff_of_false (fun h => (by cases h)) ?_
      rintro ⟨a, len, ⟨h, -⟩, -⟩
      cases h
    | some packed =>
      dsimp only
      constructor
      · intro h
        cases h
        exact ⟨packed, _, ⟨rfl, rfl⟩, rfl⟩
      · rintro ⟨a, len, ⟨ha, rfl⟩, rfl⟩
        cases ha
        rfl
  · -- a network; a line end after the prefix would be ignored, but `trim` has left none
    rw [hexplode]
    dsimp only
    have hsuffix : suffix.getLast? ≠ some '\n' := by
      intro h
      refine hlast ?_
      rw [List.getLast?_append, List.getLast?_cons, h]
      rfl
    simp only [entry_network_iff hslash hsuffix]
    cases hpton : inet.pton host with
    | none =>
      refine iff_of_false (fun h => (by cases h)) ?_
      rintro ⟨a, len, ⟨h, -⟩, -⟩
      cases h
    | some packed =>
      dsimp only
      -- the prefix is decimal digits only
      split
      · rename_i hre
        refine iff_of_false (fun h => (by cases h)) ?_
        rintro ⟨a, len, ⟨-, h, -⟩, -⟩
        rw [h] at hre
        cases hre
      rename_i hre
      rw [Bool.not_eq_true, Bool.not_eq_false'] at hre
      split
      · rename_i hwidth
        refine iff_of_false (fun h => (by cases h)) ?_
        rintro ⟨a, len, ⟨ha, -, hle, -⟩, -⟩
        cases ha
        omega
      · rename_i hwidth
        constructor
        · intro h
          cases h
          exact ⟨packed, _, ⟨rfl, hre, by omega, rfl⟩, rfl⟩
        · rintro ⟨a, len, ⟨ha, -, -, rfl⟩, rfl⟩
          cases ha
          rfl

/-- The network of an address and a prefix holds what agrees with the address on the prefix. -/
theorem make_contains {w len : ℕ} (ip : Fin (2 ^ w)) (hlen : len ≤ w) :
    ∃ net, Net.make false ip len = some net ∧
      ∀ x, net.Contains x ↔ ip.val / 2 ^ (w - len) = x / 2 ^ (w - len) := by
  rw [Net.make, dif_pos hlen, if_neg (fun h => Bool.false_ne_true h.1)]
  refine ⟨_, rfl, fun x => ?_⟩
  have hpos : 0 < 2 ^ (w - len) := Nat.two_pow_pos _
  have hcleared : ∀ n : ℕ, n - n % 2 ^ (w - len) = 2 ^ (w - len) * (n / 2 ^ (w - len)) := by
    intro n
    have hn := Nat.div_add_mod n (2 ^ (w - len))
    omega
  show x - x % 2 ^ (w - len) = ip.val - ip.val % 2 ^ (w - len) ↔ _
  rw [hcleared, hcleared, Nat.mul_right_inj hpos.ne']
  exact eq_comm

theorem prefix_to_dec {w len : ℕ} (h : len ≤ w) :
    prefix_from_prefix_string w (to_dec len) = some len := by
  have hall : (to_dec len).all is_digit = true := List.all_eq_true.mpr (fun c hc => mem_to_dec hc)
  rw [prefix_from_prefix_string, if_neg, of_dec_to_dec, if_neg (by omega)]
  rw [hall]
  simp

/-- A rendered entry has one slash. -/
theorem split_rendered (inet : Inet) (a : IPAddress) (len : ℕ) :
    split '/' (inet.ntop a ++ '/' :: to_dec len) = [inet.ntop a, to_dec len] := by
  have hslash : '/' ∉ inet.ntop a := by
    intro h
    rcases inet.ntop_chars a _ h with h | h | h
    · exact absurd h (by decide)
    · exact absurd h (by decide)
    · exact absurd h (by decide)
  have hdec : '/' ∉ to_dec len := fun h => absurd (mem_to_dec h) (by decide)
  have hjoin : inet.ntop a ++ '/' :: to_dec len = join '/' [inet.ntop a, to_dec len] := by
    rw [join_cons_cons, join_singleton]
  rw [hjoin]
  refine split_join (List.cons_ne_nil _ _) ?_
  intro part hpart
  rcases List.mem_cons.mp hpart with rfl | hpart
  · exact hslash
  · rw [List.mem_singleton.mp hpart]
    exact hdec

/-- Python reads a rendered entry as the network of its address and prefix. -/
theorem ip_network_rendered (inet : Inet) {a : IPAddress} {len : ℕ} (hlen : len ≤ a.version.width) :
    ∃ net, ip_network false (inet.ntop a ++ '/' :: to_dec len) = some net ∧
      ∀ x, net.Contains x ↔ a.version = x.version ∧
        a.toNat / 2 ^ (a.version.width - len) = x.toNat / 2 ^ (a.version.width - len) := by
  have hparsed := inet.ntop_parsed a
  have hscope : '%' ∉ inet.ntop a ++ '/' :: to_dec len := by
    intro hmem
    rcases List.mem_append.mp hmem with h | h
    · rcases inet.ntop_chars a _ h with h | h | h
      · exact absurd h (by decide)
      · exact absurd h (by decide)
      · exact absurd h (by decide)
    rcases List.mem_cons.mp h with h | h
    · exact absurd h (by decide)
    · exact absurd (mem_to_dec h) (by decide)
  rw [ip_address] at hparsed
  rw [ip_network, if_neg hscope, split_rendered inet a len]
  dsimp only
  cases a with
  | v4 ip =>
    -- what `ip_address` has parsed as IPv4
    have hv4 : ipv4_address (inet.ntop (.v4 ip)) = some ip := by
      split at hparsed
      · rename_i ip' hip
        cases hparsed
        exact hip
      · obtain ⟨ip', -, h⟩ := Option.map_eq_some_iff.mp hparsed
        cases h
    obtain ⟨net, hnet, hcontains⟩ := make_contains ip hlen
    have hmask : ipv4_make_netmask (to_dec len) = some len := by
      rw [ipv4_make_netmask, @prefix_to_dec 32 len hlen]
      rfl
    refine ⟨.v4 net, ?_, fun x => ?_⟩
    · rw [hv4, hmask]
      dsimp only [Option.bind]
      rw [hnet]
      rfl
    · cases x with
      | v4 x =>
        show net.Contains x.val ↔ _
        rw [hcontains]
        exact (and_iff_right rfl).symm
      | v6 x => exact iff_of_false id (fun h => (by cases h.1))
  | v6 ip =>
    -- an IPv6 address is tried after IPv4 has failed
    have hnone : ipv4_address (inet.ntop (.v6 ip)) = none ∧
        ipv6_address (inet.ntop (.v6 ip)) = some ip := by
      split at hparsed
      · cases hparsed
      · rename_i hnone
        obtain ⟨ip', hip, h⟩ := Option.map_eq_some_iff.mp hparsed
        cases h
        exact ⟨hnone, hip⟩
    obtain ⟨net, hnet, hcontains⟩ := make_contains ip hlen
    have hmask : prefix_from_prefix_string 128 (to_dec len) = some len := prefix_to_dec hlen
    refine ⟨.v6 net, ?_, fun x => ?_⟩
    · rw [hnone.1, hnone.2]
      dsimp only [Option.bind]
      rw [hmask]
      dsimp only
      rw [hnet]
      rfl
    · cases x with
      | v4 x => exact iff_of_false id (fun h => (by cases h.1))
      | v6 x =>
        show net.Contains x.val ↔ _
        rw [hcontains]
        exact (and_iff_right rfl).symm

/-! ## The characters of a rendered entry

Nothing in a rendered entry is special to the readers, so a line is the entry. -/

theorem entry_len_le {inet : Inet} {item : Text} {a : IPAddress} {len : ℕ}
    (h : Entry inet item a len) : len ≤ a.version.width := by
  cases h with
  | host => exact Nat.le_refl _
  | network _ _ _ _ _ hle => exact hle

/-- What is written for an entry: digits, letters, dots, colons and a slash. -/
def EntryChar (c : Char) : Prop := c = '.' ∨ c = ':' ∨ c = '/' ∨ is_hex_lower c = true

theorem rendered_chars (inet : Inet) (a : IPAddress) (len : ℕ) :
    ∀ c ∈ inet.ntop a ++ '/' :: to_dec len, EntryChar c := by
  intro c hc
  rcases List.mem_append.mp hc with hc | hc
  · rcases inet.ntop_chars a c hc with h | h | h
    · exact .inl h
    · exact .inr (.inl h)
    · exact .inr (.inr (.inr h))
  · rcases List.mem_cons.mp hc with rfl | hc
    · exact .inr (.inr (.inl rfl))
    · refine .inr (.inr (.inr ?_))
      rw [is_hex_lower, mem_to_dec hc]
      rfl

theorem entryChar_range {c : Char} (h : EntryChar c) : 46 ≤ c.toNat ∧ c.toNat ≤ 102 := by
  rcases h with rfl | rfl | rfl | h
  · decide
  · decide
  · decide
  · simp only [is_hex_lower, is_digit, Bool.or_eq_true, Bool.and_eq_true, decide_eq_true_eq] at h
    rcases h with ⟨hlo, hhi⟩ | ⟨hlo, hhi⟩
    · have hlo' : 48 ≤ c.toNat := hlo
      have hhi' : c.toNat ≤ 57 := hhi
      omega
    · have hlo' : 97 ≤ c.toNat := hlo
      have hhi' : c.toNat ≤ 102 := hhi
      omega

/-- Such a character is no blank, ends no line, and starts no comment or scope. -/
theorem entryChar_plain {c : Char} (h : EntryChar c) :
    PyText.is_space c = false ∧ is_line_end c = false ∧ c ≠ '#' ∧ c ≠ '%' ∧ c.toNat < 128 := by
  have hrange := entryChar_range h
  refine ⟨?_, ?_, ?_, ?_, by omega⟩
  · rw [Bool.eq_false_iff]
    intro hspace
    simp only [PyText.is_space, Bool.or_eq_true, Bool.and_eq_true, decide_eq_true_eq,
      beq_iff_eq] at hspace
    omega
  · rw [Bool.eq_false_iff]
    intro hend
    simp only [is_line_end, Bool.or_eq_true, Bool.and_eq_true, decide_eq_true_eq,
      beq_iff_eq] at hend
    omega
  · rintro rfl
    exact absurd hrange.1 (by decide)
  · rintro rfl
    exact absurd hrange.1 (by decide)

/-! ## The file

The lines of the file are the rendered entries, and the loop of either reader takes all of them.
-/

/-- A rendered list: each text is what is written for an address and a prefix. -/
def Rendered (inet : Inet) (text : Text) : Prop :=
  ∃ a len, len ≤ a.version.width ∧ text = inet.ntop a ++ '/' :: to_dec len

theorem rendered_line {inet : Inet} {text : Text} (h : Rendered inet text) :
    strip text = text ∧ text ≠ [] ∧ text.head? ≠ some '#' ∧ '%' ∉ text ∧
      ∃ net, ip_network false text = some net := by
  obtain ⟨a, len, hlen, rfl⟩ := h
  have hchars := rendered_chars inet a len
  obtain ⟨net, hnet, -⟩ := ip_network_rendered inet hlen
  refine ⟨strip_of_no_space (fun c hc => (entryChar_plain (hchars c hc)).1),
    List.append_ne_nil_of_right_ne_nil _ (List.cons_ne_nil _ _), ?_, ?_, net, hnet⟩
  · intro hhead
    exact (entryChar_plain (hchars '#' (List.mem_of_mem_head? hhead))).2.2.1 rfl
  · intro hscope
    exact (entryChar_plain (hchars '%' hscope)).2.2.2.1 rfl

/-- The readers' loop takes every rendered line and finds its network. -/
theorem parse_rendered {ε : Type} (errors : EntryErrors ε) {inet : Inet} {lines : List Text}
    (h : ∀ line ∈ lines, Rendered inet line) : ∀ {found : List IPNetwork},
      found.length + lines.length ≤ MAX_WHITELIST_ENTRIES →
      parse_lines errors found lines = .ok (found ++ lines.filterMap (ip_network false)) := by
  induction lines with
  | nil =>
    intro found _
    rw [parse_lines, List.filterMap_nil, List.append_nil]
  | cons line lines ih =>
    intro found hcount
    rw [List.forall_mem_cons] at h
    obtain ⟨hstrip, hne, hcomment, hscope, net, hnet⟩ := rendered_line h.1
    rw [List.length_cons] at hcount
    have hlength : ¬ MAX_WHITELIST_ENTRIES < (found ++ [net]).length := by
      rw [List.length_append, List.length_singleton]
      omega
    have hrest := @ih h.2 (found ++ [net]) (by
      rw [List.length_append, List.length_singleton]
      omega)
    rw [parse_lines, hstrip, if_neg (fun hor => hor.elim hne hcomment), if_neg hscope, hnet]
    dsimp only
    rw [if_neg hlength, hrest, List.filterMap_cons_some hnet, List.append_assoc,
      List.singleton_append]

/-- The lines of the file: those of the list, or one blank line. -/
theorem splitlines_whitelist {inet : Inet} {whitelist : List Text}
    (h : ∀ line ∈ whitelist, Rendered inet line) {contents : Text}
    (hcontents : contents = resync_whitelist whitelist ∨ contents = refresh_whitelist whitelist) :
    splitlines contents = whitelist ∨ (whitelist = [] ∧ splitlines contents = [[]]) := by
  cases whitelist with
  | nil =>
    rcases hcontents with rfl | rfl
    · exact .inl rfl
    · exact .inr ⟨rfl, rfl⟩
  | cons line lines =>
    have hlines : contents = (line :: lines).flatMap (fun l => l ++ ['\n']) := by
      have hjoin : ∀ (l : Text) (ls : List Text), implode '\n' (l :: ls) ++ ['\n'] =
          (l :: ls).flatMap (fun l => l ++ ['\n']) := by
        intro l ls
        induction ls generalizing l with
        | nil => rw [implode, join_singleton]; simp
        | cons m ms ih =>
          rw [implode, join_cons_cons, List.append_assoc, List.cons_append, ← implode, ih,
            List.flatMap_cons, List.flatMap_cons, List.flatMap_cons, List.append_assoc,
            List.append_assoc, List.singleton_append, List.singleton_append]
      rcases hcontents with rfl | rfl
      · rw [resync_whitelist, if_pos (by simp), hjoin]
      · rw [refresh_whitelist, hjoin]
    left
    rw [hlines]
    refine splitlines_lines _ (fun l hl c hc => ?_)
    obtain ⟨a, len, -, rfl⟩ := h l hl
    exact (entryChar_plain (rendered_chars inet a len c hc)).2.1

theorem is_ascii_whitelist {inet : Inet} {whitelist : List Text}
    (h : ∀ line ∈ whitelist, Rendered inet line) {contents : Text}
    (hcontents : contents = resync_whitelist whitelist ∨ contents = refresh_whitelist whitelist) :
    is_ascii contents = true := by
  have hjoined : ∀ c ∈ implode '\n' whitelist, c.toNat < 128 := by
    intro c hc
    rcases mem_join hc with rfl | ⟨line, hline, hc⟩
    · decide
    · obtain ⟨a, len, -, rfl⟩ := h line hline
      exact (entryChar_plain (rendered_chars inet a len c hc)).2.2.2.2
  have hnewline : ∀ {c : Char}, c ∈ ['\n'] → c.toNat < 128 := by
    intro c hc
    rw [List.mem_singleton.mp hc]
    decide
  rw [is_ascii, List.all_eq_true]
  intro c hc
  rw [decide_eq_true_eq]
  rcases hcontents with rfl | rfl
  · rcases List.mem_append.mp hc with hc | hc
    · exact hjoined c hc
    · split at hc
      · exact hnewline hc
      · exact absurd hc List.not_mem_nil
  · rcases List.mem_append.mp hc with hc | hc
    · exact hjoined c hc
    · exact hnewline hc

/-- What the loop over the entries collects. -/
theorem resolve_spec {inet : Inet} {items : List Text} : ∀ {resolved whitelist : List Text},
    resolve inet resolved items = .ok whitelist →
      ∀ text, text ∈ whitelist ↔
        text ∈ resolved ∨ ∃ item ∈ items, normalize_ip_or_cidr inet item = some text := by
  induction items with
  | nil =>
    intro resolved whitelist h text
    cases h
    simp
  | cons item items ih =>
    intro resolved whitelist h text
    rw [resolve] at h
    cases hitem : normalize_ip_or_cidr inet item with
    | none =>
      rw [hitem] at h
      cases h
    | some rendered =>
      rw [hitem] at h
      have hinserted : text ∈ (if rendered ∈ resolved then resolved else resolved ++ [rendered]) ↔
          text ∈ resolved ∨ text = rendered := by
        split
        · rename_i hmem
          exact ⟨.inl, fun h => h.elim id (fun heq => heq ▸ hmem)⟩
        · rw [List.mem_append, List.mem_singleton]
      rw [ih h, hinserted, List.exists_mem_cons_iff, hitem, Option.some.injEq, or_assoc,
        eq_comm (a := text)]

/-! ## Alias and index

The two paths on which the package writes the file, and the two readers of it. -/

/-- The server's limit on the file; the helper has the same. -/
def MAX_WHITELIST_BYTES : ℕ := 4 * 1024 * 1024

/-- `_secure_read_root_file` of the file that `f2bguard_atomic_write` left: the owner, the mode and
the directories are as the reader asks. -/
def secure_read_root_file (contents : Text) : Except EnforcementError Text :=
  if MAX_WHITELIST_BYTES < contents.length then .error ⟨"whitelist exceeds size limit".toList⟩
  else .ok contents

/-- The same file to the helper. -/
def helper_file (contents : Text) : Except ReadFailure Text :=
  if PfHelper.MAX_MESSAGE < contents.length then .error .too_large else .ok contents

/-- **From the alias to the index.** For every static alias that is accepted and whose list is
within the limits: the file written from it, on either path, is accepted by both readers, they
find the same networks, and an address is in the index of these networks exactly when an entry of
the alias covers it. -/
theorem whitelist_of_alias (inet : Inet) (aliases : List (Option AliasRecord)) (alias_name : Text)
    (entry : AliasRecord) (whitelist : List Text) (contents : Text) (hname : alias_name ≠ [])
    (hentry : find_alias aliases alias_name = some entry)
    (hwhitelist : get_alias_addresses inet aliases alias_name = .ok whitelist)
    (hcount : whitelist.length ≤ 100000)
    (hcontents : contents = resync_whitelist whitelist ∨ contents = refresh_whitelist whitelist)
    (hsize : contents.length ≤ 4 * 1024 * 1024) :
    ∃ networks, (secure_read_root_file contents).bind parse_whitelist = .ok networks ∧
      (secure_read (helper_file contents)).bind helper_parse_whitelist = .ok networks ∧
      ∀ x, (NetworkIndex.of_networks networks).contains x = true ↔
        ∃ item ∈ entry.address.items, Covers inet item x := by
  -- the list holds what the entries are written as
  rw [get_alias_addresses, if_neg hname, hentry] at hwhitelist
  dsimp only at hwhitelist
  split at hwhitelist
  · cases hwhitelist
  have hmem : ∀ text, text ∈ whitelist ↔
      ∃ item ∈ entry.address.items, normalize_ip_or_cidr inet item = some text := by
    intro text
    rw [resolve_spec hwhitelist]
    exact ⟨fun h => h.elim (fun h => absurd h List.not_mem_nil) id, .inr⟩
  have hrendered : ∀ line ∈ whitelist, Rendered inet line := by
    intro line hline
    obtain ⟨item, -, hitem⟩ := (hmem line).mp hline
    obtain ⟨a, len, hentry, rfl⟩ := normalize_eq_some.mp hitem
    exact ⟨a, len, entry_len_le hentry, rfl⟩
  -- the readers parse every line of the file
  have hparsed : parse_lines server_errors [] (splitlines contents) =
      .ok (whitelist.filterMap (ip_network false)) := by
    rcases splitlines_whitelist hrendered hcontents with hlines | ⟨hnil, hlines⟩
    · rw [hlines]
      refine parse_rendered server_errors hrendered ?_
      rw [List.length_nil, Nat.zero_add]
      exact hcount
    · rw [hlines, hnil]
      rfl
  have hserver : parse_whitelist contents = .ok (whitelist.filterMap (ip_network false)) := by
    rw [parse_whitelist, if_pos (is_ascii_whitelist hrendered hcontents), hparsed]
  have hfits : ¬ MAX_WHITELIST_BYTES < contents.length := Nat.not_lt_of_le hsize
  refine ⟨whitelist.filterMap (ip_network false), ?_, ?_, fun x => ?_⟩
  · rw [secure_read_root_file, if_neg hfits]
    exact hserver
  · rw [helper_file, if_neg (show ¬ PfHelper.MAX_MESSAGE < contents.length from hfits)]
    exact (readers_agree contents _).mp hserver
  · rw [contains_iff]
    constructor
    · rintro ⟨net, hnet, hx⟩
      obtain ⟨line, hline, hread⟩ := List.mem_filterMap.mp hnet
      obtain ⟨item, hitem, hnormal⟩ := (hmem line).mp hline
      obtain ⟨a, len, hcovers, rfl⟩ := normalize_eq_some.mp hnormal
      obtain ⟨net', hnet', hcontains⟩ := ip_network_rendered inet (entry_len_le hcovers)
      rw [hread] at hnet'
      cases hnet'
      obtain ⟨hversion, hbits⟩ := (hcontains x).mp hx
      exact ⟨item, hitem, a, len, hcovers, hversion, hbits⟩
    · rintro ⟨item, hitem, a, len, hcovers, hversion, hbits⟩
      obtain ⟨net, hnet, hcontains⟩ := ip_network_rendered inet (entry_len_le hcovers)
      have hline := (hmem _).mpr ⟨item, hitem, normalize_eq_some.mpr ⟨a, len, hcovers, rfl⟩⟩
      exact ⟨net, List.mem_filterMap.mpr ⟨_, hline, hnet⟩, (hcontains x).mpr ⟨hversion, hbits⟩⟩

/-! An alias with a network whose host bits are set and with a repeated host. -/

def sample_inet : Inet where
  pton := ip_address
  ntop := IPAddress.str
  ntop_parsed := ip_address_str
  ntop_chars := fun _ _ => IPAddress.mem_str

def sample_alias : AliasRecord where
  name := "safe".toList
  type := "Network".toList
  address := .text "203.0.113.9/24 2001:DB8::1  2001:db8::1/128".toList

def sample_whitelist : List Text := ["203.0.113.9/24".toList, "2001:db8::1/128".toList]

theorem whitelist_of_alias_sample :
    ∃ networks, (secure_read_root_file (resync_whitelist sample_whitelist)).bind parse_whitelist =
        .ok networks ∧
      (secure_read (helper_file (resync_whitelist sample_whitelist))).bind helper_parse_whitelist =
        .ok networks ∧
      ∀ x, (NetworkIndex.of_networks networks).contains x = true ↔
        ∃ item ∈ sample_alias.address.items, Covers sample_inet item x := by
  have hsize : (resync_whitelist sample_whitelist).length = 31 := by decide
  refine whitelist_of_alias sample_inet [none, some sample_alias] "safe".toList sample_alias
    sample_whitelist _ (by decide) rfl ?_ (by decide) (.inl rfl) (by rw [hsize]; decide)
  decide +kernel

end F2bguard.Alias
