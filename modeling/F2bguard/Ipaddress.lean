/-
Python's `ipaddress`, as far as the guard uses it: reading and printing a
literal, the address classes, and networks.

Every address the guard stores, sends to the helper or feeds to `pfctl` is a text
that some component printed with `str(address)` and another one reads back with
`ip_address(text)`. What the development needs from the library is therefore
`ip_address_str`: reading a printed address gives the address. For IPv4 this is
four decimal octets. For IPv6 it is the whole of `_compress_hextets`, since the
printed form elides a run of zero hextets and the reader has to put it back.

An IPv6 literal may end in a scope id, `fe80::1%em0`. It takes part in
`str(address)` and in comparisons, and in nothing else the guard asks an address for.
An address here is its family and its number, so `ip_address` reads a scope id and
leaves it out, and `compressed` is where it comes back. Two callers meet one: the
`listen` field of the receiver's configuration, which prints it again, and
`NetworkIndex`, which looks at the number only. The other callers refuse a text that
holds `%` before they hand it to the library.
-/
import F2bguard.PyText
import Mathlib.Data.List.GetD

set_option autoImplicit false

namespace F2bguard.Ipaddress

open F2bguard.PyText

/-- An IPv4 address may be written as a numeral. -/
instance ne_zero_v4 : NeZero (2 ^ 32) := ⟨by decide⟩

/-- An `IPv4Address` or an `IPv6Address`. -/
inductive IPAddress
  | v4 (ip : Fin (2 ^ 32))
  | v6 (ip : Fin (2 ^ 128))
  deriving DecidableEq

/-- `address.version`. -/
inductive Version
  | four
  | six
  deriving DecidableEq, Repr

/-- `address.max_prefixlen` of a family. -/
def Version.width : Version → ℕ
  | .four => 32
  | .six => 128

namespace IPAddress

def version : IPAddress → Version
  | .v4 _ => .four
  | .v6 _ => .six

/-- `int(address)`. -/
def toNat : IPAddress → ℕ
  | .v4 ip => ip.val
  | .v6 ip => ip.val

/-- An address is its family and its number. -/
theorem ext_iff {a b : IPAddress} : a = b ↔ a.version = b.version ∧ a.toNat = b.toNat := by
  cases a <;> cases b <;> simp [version, toNat, Fin.ext_iff]

/-! ## Address classes

The properties of the library the sources ask for, as ranges of numbers. -/

def is_unspecified (a : IPAddress) : Bool := a.toNat == 0

/-- In `224.0.0.0/4` or `ff00::/8`. -/
def is_multicast : IPAddress → Bool
  | .v4 ip => ip.val / 2 ^ 28 == 0xe
  | .v6 ip => ip.val / 2 ^ 120 == 0xff

/-- In `127.0.0.0/8`, or `::1`. -/
def is_loopback : IPAddress → Bool
  | .v4 ip => ip.val / 2 ^ 24 == 127
  | .v6 ip => ip.val == 1

/-- In `169.254.0.0/16` or `fe80::/10`. -/
def is_link_local : IPAddress → Bool
  | .v4 ip => ip.val / 2 ^ 16 == 0xa9fe
  | .v6 ip => ip.val / 2 ^ 118 == 0x3fa

/-- `getattr(address, "ipv4_mapped", None) is not None`: in `::ffff:0:0/96`. -/
def is_ipv4_mapped : IPAddress → Bool
  | .v4 _ => false
  | .v6 ip => ip.val / 2 ^ 32 == 0xffff

/-- The five-way test that `store._ip`, `sender.canonical_ip` and
`pf_helper.parse_request` each write out: the special-purpose addresses. -/
def is_protected (a : IPAddress) : Bool :=
  a.is_unspecified || a.is_multicast || a.is_loopback || a.is_link_local || a.is_ipv4_mapped

end IPAddress

/-! ## Big-endian digits

`int.to_bytes(4, 'big')` and the eight hextets are the same splitting at two
bases, and the readers fold both back with a shift and an or. -/

/-- The `k` lowest digits of `n` in base `b`, most significant first. -/
def be_digits (b : ℕ) : ℕ → ℕ → List ℕ
  | 0, _ => []
  | k + 1, n => be_digits b k (n / b) ++ [n % b]

/-- Reading digits back, most significant first, onto `acc`. -/
def of_digits (b acc : ℕ) (ds : List ℕ) : ℕ := ds.foldl (fun acc d => b * acc + d) acc

@[simp] theorem be_digits_length (b k n : ℕ) : (be_digits b k n).length = k := by
  induction k generalizing n with
  | zero => rfl
  | succ k ih => simp [be_digits, ih]

theorem mem_be_digits {b : ℕ} (hb : 0 < b) {k n d : ℕ} (hd : d ∈ be_digits b k n) : d < b := by
  induction k generalizing n with
  | zero => simp [be_digits] at hd
  | succ k ih =>
    rw [be_digits, List.mem_append, List.mem_singleton] at hd
    rcases hd with h | h
    · exact ih h
    · rw [h]
      exact Nat.mod_lt _ hb

theorem of_digits_append (b acc : ℕ) (xs ys : List ℕ) :
    of_digits b acc (xs ++ ys) = of_digits b (of_digits b acc xs) ys := by
  simp [of_digits]

theorem of_digits_replicate_zero (b acc k : ℕ) :
    of_digits b acc (List.replicate k 0) = acc * b ^ k := by
  induction k generalizing acc with
  | zero => simp [of_digits]
  | succ k ih =>
    rw [List.replicate_succ, of_digits, List.foldl_cons, ← of_digits, ih]
    ring

theorem of_digits_be_digits {b k n : ℕ} (hn : n < b ^ k) : of_digits b 0 (be_digits b k n) = n := by
  induction k generalizing n with
  | zero =>
    have : n = 0 := by simpa using hn
    simp [be_digits, of_digits, this]
  | succ k ih =>
    have hdiv : n / b < b ^ k := by
      apply Nat.div_lt_of_lt_mul
      rwa [pow_succ, Nat.mul_comm] at hn
    rw [be_digits, of_digits_append, ih hdiv]
    exact Nat.div_add_mod n b

/-- A `mapM` over printed values that reads each one back. -/
theorem mapM_map_some {α β : Type*} (print : α → β) (read : β → Option α) {xs : List α}
    (h : ∀ x ∈ xs, read (print x) = some x) : (xs.map print).mapM read = some xs := by
  induction xs with
  | nil => rfl
  | cons x xs ih =>
    rw [List.map_cons, List.mapM_cons, h x (by simp),
      ih (fun y hy => h y (List.mem_cons_of_mem _ hy))]
    rfl

/-! ## IPv4 literals

Four octets in decimal, without leading zeros; nothing else is an IPv4 address, as the library
does not take the short forms of `inet_aton`. -/

/-- `IPv4Address._parse_octet`; `none` is its `ValueError`. -/
def parse_octet (octet_str : Text) : Option ℕ :=
  if octet_str = [] then none
  else if !octet_str.all is_digit then none
  else if 3 < octet_str.length then none
  -- leading zeros are refused, as by `inet_pton`
  else if octet_str ≠ ['0'] ∧ octet_str.head? = some '0' then none
  else if 255 < of_dec octet_str then none
  else some (of_dec octet_str)

/-- `IPv4Address._ip_int_from_string`. -/
def ipv4_int_from_string (ip_str : Text) : Option ℕ :=
  if ip_str = [] then none
  else if (split '.' ip_str).length ≠ 4 then none
  else ((split '.' ip_str).mapM parse_octet).map (of_digits 256 0)

/-- `IPv4Address(text)`. The last test is the range of the type; four octets never exceed it. -/
def ipv4_address (ip_str : Text) : Option (Fin (2 ^ 32)) :=
  if '/' ∈ ip_str then none
  else (ipv4_int_from_string ip_str).bind
    (fun n => if h : n < 2 ^ 32 then some ⟨n, h⟩ else none)

/-- `str(IPv4Address)`. -/
def ipv4_str (n : ℕ) : Text := join '.' ((be_digits 256 4 n).map to_dec)

theorem parse_octet_to_dec {n : ℕ} (hn : n < 256) : parse_octet (to_dec n) = some n := by
  have hall : (to_dec n).all is_digit = true := List.all_eq_true.mpr (fun c hc => mem_to_dec hc)
  have hlen : (to_dec n).length ≤ 3 := (to_dec_length_le (by norm_num)).mpr (by omega)
  have hzero : ¬ (to_dec n ≠ ['0'] ∧ (to_dec n).head? = some '0') := by
    rintro ⟨hne, hhead⟩
    have h0 : n ≠ 0 := by
      intro h
      apply hne
      rw [h]
      exact Nat.toDigits_zero 10
    exact to_dec_head h0 hhead
  rw [parse_octet, if_neg (to_dec_ne_nil n), if_neg (by simp [hall]), if_neg (by omega),
    if_neg hzero, of_dec_to_dec, if_neg (by omega)]

/-- The characters of a printed IPv4 address. -/
theorem mem_ipv4_str {n : ℕ} {c : Char} (hc : c ∈ ipv4_str n) : c = '.' ∨ is_digit c = true := by
  rcases mem_join hc with h | ⟨p, hp, h⟩
  · exact Or.inl h
  · obtain ⟨d, -, rfl⟩ := List.mem_map.mp hp
    exact Or.inr (mem_to_dec h)

theorem not_mem_ipv4_str {n : ℕ} {c : Char} (h1 : c ≠ '.') (h2 : is_digit c = false) :
    c ∉ ipv4_str n := by
  intro hc
  rcases mem_ipv4_str hc with h | h
  · exact h1 h
  · rw [h] at h2
    exact absurd h2 (by decide)

theorem split_ipv4_str (n : ℕ) : split '.' (ipv4_str n) = (be_digits 256 4 n).map to_dec := by
  apply split_join
  · simp [be_digits]
  · intro p hp hdot
    obtain ⟨d, -, rfl⟩ := List.mem_map.mp hp
    exact absurd (mem_to_dec hdot) (by decide)

theorem ipv4_address_str (ip : Fin (2 ^ 32)) : ipv4_address (ipv4_str ip.val) = some ip := by
  have hslash : '/' ∉ ipv4_str ip.val := not_mem_ipv4_str (by decide) (by decide)
  have hne : ipv4_str ip.val ≠ [] := by
    intro h
    have hs := split_ipv4_str ip.val
    rw [h] at hs
    have hl := congrArg List.length hs
    simp [split] at hl
  have hread : ((be_digits 256 4 ip.val).map to_dec).mapM parse_octet
      = some (be_digits 256 4 ip.val) :=
    mapM_map_some to_dec parse_octet
      (fun d hd => parse_octet_to_dec (mem_be_digits (by norm_num) hd))
  have hval : of_digits 256 0 (be_digits 256 4 ip.val) = ip.val :=
    of_digits_be_digits (lt_of_lt_of_eq ip.isLt (by norm_num))
  rw [ipv4_address, if_neg hslash, ipv4_int_from_string, if_neg hne, split_ipv4_str,
    if_neg (by simp), hread, Option.map_some, Option.bind_some, hval, dif_pos ip.isLt]

/-! ## IPv6 literals: reading

A literal is split at its colons. An empty part between the endpoints stands for the zeros that
are missing from eight hextets, and there can be only one; an IPv4 address may stand for the last
two hextets. -/

/-- `IPv6Address._parse_hextet`. `int('', 16)` raises, so the empty text is refused. -/
def parse_hextet (hextet_str : Text) : Option ℕ :=
  if 4 < hextet_str.length then none
  else if hextet_str = [] then none
  else of_hex hextet_str

/-- The IPv4-style suffix of an IPv6 literal, turned into two hextets. -/
def expand_ipv4_suffix (parts : List Text) : Option (List Text) :=
  match parts.getLast? with
  | none => some parts
  | some last =>
      if '.' ∈ last then
        (ipv4_address last).map (fun n =>
          parts.dropLast ++ [to_hex (n.val / 65536 % 65536), to_hex (n.val % 65536)])
      else some parts

/-- The positions of empty parts between the endpoints: one for each `::`. -/
def empty_middle (parts : List Text) : List ℕ :=
  (List.range parts.length).filter
    (fun i => 1 ≤ i && i + 1 < parts.length && decide (parts.getD i [] = []))

/-- `IPv6Address._ip_int_from_string` from the list of parts on. Without a `::` there have to be
eight parts; with one, it has to stand for at least one hextet, and an endpoint may be empty only
as a part of it. -/
def ipv6_int_from_parts (parts : List Text) : Option ℕ :=
  if 9 < parts.length then none
  else
    match empty_middle parts with
    | [] =>
        if parts.length ≠ 8 then none
        else if parts.head? = some [] then none
        else if parts.getLast? = some [] then none
        else (parts.mapM parse_hextet).map (of_digits 65536 0)
    | [skip_index] =>
        -- a `::` at an endpoint leaves one more empty part there
        let parts_hi := if parts.head? = some [] then skip_index - 1 else skip_index
        let parts_lo :=
          if parts.getLast? = some [] then parts.length - skip_index - 2
          else parts.length - skip_index - 1
        if parts.head? = some [] ∧ parts_hi ≠ 0 then none
        else if parts.getLast? = some [] ∧ parts_lo ≠ 0 then none
        else if 8 < parts_hi + parts_lo + 1 then none
        else
          ((parts.take parts_hi).mapM parse_hextet).bind (fun hi =>
            ((parts.drop (parts.length - parts_lo)).mapM parse_hextet).map (fun lo =>
              of_digits 65536 (of_digits 65536 0 hi * 65536 ^ (8 - (parts_hi + parts_lo))) lo))
    | _ => none

/-- `IPv6Address._ip_int_from_string`. -/
def ipv6_int_from_string (ip_str : Text) : Option ℕ :=
  if ip_str = [] then none
  else if (split ':' ip_str).length < 3 then none
  else (expand_ipv4_suffix (split ':' ip_str)).bind ipv6_int_from_parts

/-- `IPv6Address._split_scope_id`: a scope id is not empty and holds no second `%`. -/
def split_scope_id (ip_str : Text) : Option (Text × Option Text) :=
  match ip_str.dropWhile (· ≠ '%') with
  | [] => some (ip_str, none)
  | _ :: scope_id =>
      if scope_id = [] ∨ '%' ∈ scope_id then none
      else some (ip_str.takeWhile (· ≠ '%'), some scope_id)

/-- `int(IPv6Address(text))`. The last test is the range of the type; eight hextets never
exceed it. -/
def ipv6_address (ip_str : Text) : Option (Fin (2 ^ 128)) :=
  if '/' ∈ ip_str then none
  else (split_scope_id ip_str).bind (fun r => (ipv6_int_from_string r.1).bind
    (fun n => if h : n < 2 ^ 128 then some ⟨n, h⟩ else none))

/-- `address.scope_id` of the address a text is read as. -/
def scope_id (address : Text) : Option Text := (split_scope_id address).bind Prod.snd

/-- `ipaddress.ip_address(text)`, the family and the number; `none` is its `ValueError`. No text
is a literal of both families. -/
def ip_address (address : Text) : Option IPAddress :=
  match ipv4_address address with
  | some ip => some (.v4 ip)
  | none => (ipv6_address address).map .v6

/-! ## IPv6 literals: printing

The first of the longest runs of zero hextets is elided, if it is longer than one. -/

/-- The variables of the loop in `_compress_hextets`. -/
structure ZeroRun where
  best_start : ℕ
  best_len : ℕ
  start : Option ℕ
  len : ℕ

/-- One turn of that loop. A run has to be longer than the best so far to replace it, which is why
the first of two equal ones is kept. -/
def ZeroRun.step (run : ZeroRun) (index : ℕ) (hextet : Text) : ZeroRun :=
  if hextet = ['0'] then
    let len := run.len + 1
    let start := run.start.getD index
    if run.best_len < len then ⟨start, len, some start, len⟩
    else ⟨run.best_start, run.best_len, some start, len⟩
  else ⟨run.best_start, run.best_len, none, 0⟩

/-- The loop from position `index` on. -/
def ZeroRun.scan (run : ZeroRun) (index : ℕ) : List Text → ZeroRun
  | [] => run
  | hextet :: rest => (run.step index hextet).scan (index + 1) rest

/-- `IPv6Address._compress_hextets`. The list it returns is joined with colons; an elided run is
an empty part, and one more at an endpoint the run reaches. -/
def compress_hextets (hextets : List Text) : List Text :=
  let run := (ZeroRun.mk 0 0 none 0).scan 0 hextets
  if 1 < run.best_len then
    let best_end := run.best_start + run.best_len
    let padded := if best_end = hextets.length then hextets ++ [[]] else hextets
    let elided := padded.take run.best_start ++ [[]] ++ padded.drop best_end
    if run.best_start = 0 then [] :: elided else elided
  else hextets

/-- `str(IPv6Address)` without a scope id. -/
def ipv6_str (n : ℕ) : Text := join ':' (compress_hextets ((be_digits 65536 8 n).map to_hex))

/-- `str(address)`, which `address.compressed` equals. -/
def IPAddress.str : IPAddress → Text
  | .v4 ip => ipv4_str ip.val
  | .v6 ip => ipv6_str ip.val

/-! ## The elided run

The scan's invariant: the run it would elide consists of zero hextets and ends
at or before the position reached, and the run being counted ends exactly there.
That the elided run is the longest is not needed to read the text back. -/

/-- The positions `[start, start + len)` of `hextets` all hold `0`. -/
def ZeroAt (hextets : List Text) (start len : ℕ) : Prop :=
  ∀ i, start ≤ i → i < start + len → hextets[i]? = some ['0']

/-- What the scan knows after the first `index` hextets. -/
structure ZeroRun.Inv (hextets : List Text) (index : ℕ) (run : ZeroRun) : Prop where
  best_le : run.best_start + run.best_len ≤ index
  best_zero : ZeroAt hextets run.best_start run.best_len
  counting : ∀ s, run.start = some s → s + run.len = index ∧ ZeroAt hextets s run.len
  idle : run.start = none → run.len = 0

theorem ZeroAt.snoc {hextets : List Text} {start len : ℕ} (h : ZeroAt hextets start len)
    (hnext : hextets[start + len]? = some ['0']) : ZeroAt hextets start (len + 1) := by
  intro i hi hlt
  rcases Nat.lt_or_ge i (start + len) with hold | hge
  · exact h i hi hold
  · have hi' : i = start + len := by omega
    rw [hi']
    exact hnext

theorem ZeroRun.step_inv {hextets : List Text} {index : ℕ} {run : ZeroRun} {hextet : Text}
    (hinv : run.Inv hextets index) (hget : hextets[index]? = some hextet) :
    (run.step index hextet).Inv hextets (index + 1) := by
  have hbest := hinv.best_le
  by_cases hzero : hextet = ['0']
  · -- the run counted so far, extended by this position
    have hstart : run.start.getD index + run.len = index
        ∧ ZeroAt hextets (run.start.getD index) run.len := by
      cases hs : run.start with
      | none =>
        have hlen := hinv.idle hs
        refine ⟨by simp [hlen], ?_⟩
        intro i hi hlt
        simp only [hlen, Option.getD_none] at hi hlt
        omega
      | some s => exact hinv.counting s hs
    obtain ⟨hsum, hzeros⟩ := hstart
    have hext : ZeroAt hextets (run.start.getD index) (run.len + 1) :=
      hzeros.snoc (by rw [hsum, hget, hzero])
    rw [ZeroRun.step, if_pos hzero]
    dsimp only
    by_cases hlt : run.best_len < run.len + 1
    · rw [if_pos hlt]
      refine ⟨by dsimp only; omega, hext, ?_, by simp⟩
      intro s hs
      obtain rfl : run.start.getD index = s := Option.some.inj hs
      exact ⟨by dsimp only; omega, hext⟩
    · rw [if_neg hlt]
      refine ⟨by dsimp only; omega, hinv.best_zero, ?_, by simp⟩
      intro s hs
      obtain rfl : run.start.getD index = s := Option.some.inj hs
      exact ⟨by dsimp only; omega, hext⟩
  · rw [ZeroRun.step, if_neg hzero]
    exact ⟨by dsimp only; omega, hinv.best_zero, by simp, by simp⟩

theorem ZeroRun.scan_inv {hextets : List Text} (rest : List Text) :
    ∀ (index : ℕ) (run : ZeroRun), hextets.drop index = rest →
      index ≤ hextets.length → run.Inv hextets index → (run.scan index rest).Inv hextets hextets.length := by
  induction rest with
  | nil =>
    intro index run hdrop hle hinv
    have hlen : hextets.length ≤ index := List.drop_eq_nil_iff.mp hdrop
    have hidx : index = hextets.length := by omega
    rw [ZeroRun.scan, ← hidx]
    exact hinv
  | cons hextet rest ih =>
    intro index run hdrop _ hinv
    have hlt : index < hextets.length := by
      by_contra hge
      rw [List.drop_eq_nil_of_le (by omega)] at hdrop
      exact absurd hdrop (by simp)
    have hget : hextets[index]? = some hextet := by
      have h0 := congrArg (fun l => l[0]?) hdrop
      simpa using h0
    have hdrop' : hextets.drop (index + 1) = rest := by
      rw [← List.tail_drop, hdrop, List.tail_cons]
    rw [ZeroRun.scan]
    exact ih (index + 1) _ hdrop' hlt (ZeroRun.step_inv hinv hget)

/-- A stretch of zero hextets cut out of the list: what is before it, the zeros,
and what is after it. -/
theorem ZeroAt.decompose {hextets : List Text} {start len : ℕ} (h : ZeroAt hextets start len) :
    hextets = hextets.take start ++ List.replicate len ['0'] ++ hextets.drop (start + len) := by
  have hmid : (hextets.drop start).take len = List.replicate len ['0'] := by
    apply List.ext_getElem?
    intro i
    by_cases hi : i < len
    · rw [List.getElem?_take_of_lt hi, List.getElem?_drop, h (start + i) (by omega) (by omega),
        List.getElem?_replicate_of_lt hi]
    · rw [List.getElem?_eq_none (by simp; omega), List.getElem?_eq_none (by simp; omega)]
  rw [← hmid, ← List.drop_drop, List.append_assoc, List.take_append_drop, List.take_append_drop]

/-- The printed parts around an elided run: an endpoint that elides leaves an
empty part of its own. -/
def gap_parts (pre post : List Text) : List Text :=
  (if pre = [] then [[]] else pre) ++ [[]] ++ (if post = [] then [[]] else post)

/-- `_compress_hextets` either leaves the list alone or elides one run of at
least two zero hextets. -/
theorem compress_hextets_cases (hextets : List Text) :
    compress_hextets hextets = hextets ∨
    ∃ pre post k, 2 ≤ k ∧ hextets = pre ++ List.replicate k ['0'] ++ post
      ∧ compress_hextets hextets = gap_parts pre post := by
  have hinit : (ZeroRun.mk 0 0 none 0).Inv hextets 0 := by
    refine ⟨by simp, ?_, by simp, by simp⟩
    intro i _ hlt
    simp at hlt
  have hinv := ZeroRun.scan_inv hextets 0 _ (by simp) (by simp) hinit
  rw [compress_hextets]
  -- only the invariant of the scan is used from here on
  generalize (ZeroRun.mk 0 0 none 0).scan 0 hextets = run at hinv
  dsimp only
  by_cases hlen : 1 < run.best_len
  · right
    have hle := hinv.best_le
    refine ⟨hextets.take run.best_start, hextets.drop (run.best_start + run.best_len),
      run.best_len, hlen, hinv.best_zero.decompose, ?_⟩
    rw [if_pos hlen]
    have htake : ∀ (ys : List Text), (hextets ++ ys).take run.best_start
        = hextets.take run.best_start := fun ys => List.take_append_of_le_length (by omega)
    have hpre : hextets.take run.best_start = [] ↔ run.best_start = 0 := by
      rw [List.take_eq_nil_iff]
      constructor
      · rintro (h | h)
        · exact h
        · subst h
          simp only [List.length_nil] at hle
          omega
      · exact Or.inl
    -- a run at an end leaves an empty part there, so that `join` prints `::`
    by_cases hend : run.best_start + run.best_len = hextets.length
    · have hpost : hextets.drop (run.best_start + run.best_len) = [] :=
        List.drop_eq_nil_of_le (by omega)
      have hdrop : (hextets ++ [[]]).drop (run.best_start + run.best_len) = [[]] := by
        rw [hend, List.drop_left]
      rw [if_pos hend, htake, hdrop, gap_parts, hpost, if_pos rfl]
      by_cases h0 : run.best_start = 0
      · rw [if_pos h0, if_pos (hpre.mpr h0), hpre.mpr h0]
        rfl
      · rw [if_neg h0, if_neg (fun h => h0 (hpre.mp h))]
    · have hpost : hextets.drop (run.best_start + run.best_len) ≠ [] := by
        rw [Ne, List.drop_eq_nil_iff]
        omega
      rw [if_neg hend, gap_parts, if_neg hpost]
      by_cases h0 : run.best_start = 0
      · rw [if_pos h0, if_pos (hpre.mpr h0), hpre.mpr h0]
        rfl
      · rw [if_neg h0, if_neg (fun h => h0 (hpre.mp h))]
  · left
    rw [if_neg hlen]

/-! ## Reading the printed hextets back

What is printed has eight parts, or one empty part between the endpoints for the run that was
elided. In both cases the reader finds as many hextets as were printed and puts zeros into the
gap. -/

theorem parse_hextet_to_hex {n : ℕ} (hn : n < 65536) : parse_hextet (to_hex n) = some n := by
  have hlen : (to_hex n).length ≤ 4 := (to_hex_length_le (by norm_num)).mpr (by omega)
  rw [parse_hextet, if_neg (by omega), if_neg (to_hex_ne_nil n), of_hex_to_hex]

theorem mapM_parse_hextet {hs : List ℕ} (h : ∀ d ∈ hs, d < 65536) :
    (hs.map to_hex).mapM parse_hextet = some hs :=
  mapM_map_some to_hex parse_hextet (fun d hd => parse_hextet_to_hex (h d hd))

/-- A filter of an interval that only one position passes. -/
theorem filter_range_eq_singleton {n m : ℕ} {p : ℕ → Bool} (hm : m < n) (hp : p m = true)
    (huniq : ∀ i, i < n → p i = true → i = m) : (List.range n).filter p = [m] := by
  rw [← List.perm_singleton]
  refine (List.perm_ext_iff_of_nodup (List.nodup_range.filter _) (List.nodup_singleton m)).mpr ?_
  intro i
  rw [List.mem_filter, List.mem_range, List.mem_singleton]
  constructor
  · rintro ⟨hi, hpi⟩
    exact huniq i hi hpi
  · rintro rfl
    exact ⟨hm, hp⟩

theorem head?_map_to_hex (hs : List ℕ) : (hs.map to_hex).head? ≠ some [] := by
  cases hs with
  | nil => simp
  | cons h hs => simp

theorem getLast?_map_to_hex (hs : List ℕ) : (hs.map to_hex).getLast? ≠ some [] := by
  intro h
  have hmem := List.mem_of_getLast? h
  obtain ⟨d, -, hd⟩ := List.mem_map.mp hmem
  exact to_hex_ne_nil d hd

/-- Eight printed hextets, nothing elided. -/
theorem ipv6_int_from_parts_full {hs : List ℕ} (hlen : hs.length = 8)
    (hlt : ∀ d ∈ hs, d < 65536) :
    ipv6_int_from_parts (hs.map to_hex) = some (of_digits 65536 0 hs) := by
  have hmid : empty_middle (hs.map to_hex) = [] := by
    rw [empty_middle, List.filter_eq_nil_iff]
    intro i hi
    rw [List.mem_range, List.length_map] at hi
    have hne : (hs.map to_hex).getD i [] ≠ [] := by
      rw [List.getD_eq_getElem _ _ (by simpa using hi), List.getElem_map]
      exact to_hex_ne_nil _
    simp only [hne, decide_false, Bool.and_false, Bool.false_eq_true, not_false_eq_true]
  rw [ipv6_int_from_parts, if_neg (by simp [hlen]), hmid]
  dsimp only
  rw [if_neg (by simp [hlen]), if_neg (head?_map_to_hex hs), if_neg (getLast?_map_to_hex hs),
    mapM_parse_hextet hlt, Option.map_some]

/-- The two ends of an elided text: nothing printed there, or no empty part. -/
def EndParts (ps : List Text) : Prop := ps = [[]] ∨ (ps ≠ [] ∧ ∀ p ∈ ps, p ≠ [])

theorem EndParts.length_pos {ps : List Text} (h : EndParts ps) : 0 < ps.length := by
  rcases h with rfl | ⟨hne, -⟩
  · simp
  · exact List.length_pos_of_ne_nil hne

theorem EndParts.eq_of_getElem {ps : List Text} (h : EndParts ps) {i : ℕ} (hi : i < ps.length)
    (hget : ps[i] = []) : ps = [[]] := by
  rcases h with h | ⟨-, hall⟩
  · exact h
  · exact absurd hget (hall _ (List.getElem_mem hi))

theorem endParts_printed (hs : List ℕ) :
    EndParts (if hs.map to_hex = [] then [[]] else hs.map to_hex) := by
  by_cases h : hs.map to_hex = []
  · rw [if_pos h]
    exact Or.inl rfl
  · rw [if_neg h]
    refine Or.inr ⟨h, ?_⟩
    intro p hp
    obtain ⟨d, -, rfl⟩ := List.mem_map.mp hp
    exact to_hex_ne_nil d

/-- The only empty part strictly between the endpoints is the elided run. -/
theorem empty_middle_gap {as bs : List Text} (ha : EndParts as) (hb : EndParts bs) :
    empty_middle (as ++ [[]] ++ bs) = [as.length] := by
  have hapos := ha.length_pos
  have hbpos := hb.length_pos
  have hlen : (as ++ [[]] ++ bs).length = as.length + 1 + bs.length := by
    rw [List.length_append, List.length_append, List.length_singleton]
  apply filter_range_eq_singleton
  · omega
  · have hget : (as ++ [[]] ++ bs).getD as.length [] = [] := by simp
    simp only [hlen, hget, decide_true, Bool.and_true, Bool.and_eq_true, decide_eq_true_eq]
    omega
  · intro i hi hp
    simp only [Bool.and_eq_true, decide_eq_true_eq] at hp
    obtain ⟨⟨h1, h2⟩, hget⟩ := hp
    rw [List.getD_eq_getElem _ _ hi] at hget
    rw [hlen] at h2
    rcases Nat.lt_trichotomy i as.length with hlt | heq | hgt
    · rw [List.getElem_append_left (by simp; omega), List.getElem_append_left hlt] at hget
      rw [ha.eq_of_getElem hlt hget] at hlt
      simp only [List.length_singleton] at hlt
      omega
    · exact heq
    · rw [List.getElem_append_right (by simp; omega)] at hget
      have hbs := hb.eq_of_getElem _ hget
      rw [hbs] at h2
      simp only [List.length_singleton] at h2
      omega

/-- The printed hextets around an elided run of `8 - (pre.length + post.length)` zeros. -/
theorem ipv6_int_from_parts_gap {pre post : List ℕ} (hpre : ∀ d ∈ pre, d < 65536)
    (hpost : ∀ d ∈ post, d < 65536) (hlen : pre.length + post.length ≤ 7) :
    ipv6_int_from_parts (gap_parts (pre.map to_hex) (post.map to_hex))
      = some (of_digits 65536
          (of_digits 65536 0 pre * 65536 ^ (8 - (pre.length + post.length))) post) := by
  have hmid := empty_middle_gap (endParts_printed pre) (endParts_printed post)
  -- an end of the text is empty exactly when the elided run is at that end
  have hhead : (gap_parts (pre.map to_hex) (post.map to_hex)).head? = some [] ↔ pre = [] := by
    cases pre with
    | nil => simp [gap_parts]
    | cons d ds => simp [gap_parts]
  have hlast : (gap_parts (pre.map to_hex) (post.map to_hex)).getLast? = some [] ↔ post = [] := by
    cases post with
    | nil => simp [gap_parts]
    | cons d ds =>
      have hne : (List.map to_hex (d :: ds)) ≠ [] := by simp
      rw [gap_parts, if_neg hne, List.getLast?_append_of_ne_nil _ hne]
      exact ⟨fun h => absurd h (getLast?_map_to_hex (d :: ds)), fun h => by simp at h⟩
  have hplen : (gap_parts (pre.map to_hex) (post.map to_hex)).length
      = max 1 pre.length + 1 + max 1 post.length := by
    cases pre <;> cases post <;> simp [gap_parts] <;> omega
  have hidx : (if pre.map to_hex = [] then [[]] else pre.map to_hex).length = max 1 pre.length := by
    cases pre <;> simp
  -- then the source counts one part less on that side
  have hhi : (if pre = [] then max 1 pre.length - 1 else max 1 pre.length) = pre.length := by
    cases pre <;> simp
  have hlo : (if post = [] then max 1 pre.length + 1 + max 1 post.length - max 1 pre.length - 2
      else max 1 pre.length + 1 + max 1 post.length - max 1 pre.length - 1) = post.length := by
    cases post with
    | nil => simp; omega
    | cons d ds => simp; omega
  -- what it converts on each side are the printed hextets
  have htake : (gap_parts (pre.map to_hex) (post.map to_hex)).take pre.length
      = pre.map to_hex := by
    cases pre with
    | nil => simp
    | cons d ds =>
      have hne : (List.map to_hex (d :: ds)) ≠ [] := by simp
      rw [gap_parts, if_neg hne, List.append_assoc]
      exact List.take_left' (by simp)
  have hdrop : (gap_parts (pre.map to_hex) (post.map to_hex)).drop
      (max 1 pre.length + 1 + max 1 post.length - post.length) = post.map to_hex := by
    cases post with
    | nil => exact List.drop_eq_nil_of_le (by rw [hplen]; simp)
    | cons d ds =>
      have hne : (List.map to_hex (d :: ds)) ≠ [] := by simp
      rw [gap_parts, if_neg hne]
      refine List.drop_left' ?_
      rw [List.length_append, hidx, List.length_singleton, List.length_cons]
      omega
  -- none of the source's checks fails
  rw [ipv6_int_from_parts, gap_parts, hmid, ← gap_parts]
  dsimp only
  simp only [hhead, hlast, hplen, hidx, hhi, hlo, htake, hdrop]
  rw [if_neg (by omega), if_neg (by rintro ⟨rfl, h⟩; exact h rfl),
    if_neg (by rintro ⟨rfl, h⟩; exact h rfl), if_neg (by omega), mapM_parse_hextet hpre,
    mapM_parse_hextet hpost]
  rfl

/-! ## Reading a printed address

First the parts, then the text: no printed part holds a colon, a slash or a percent sign, so
splitting finds the parts again and the checks for these characters pass. -/

theorem mem_gap_parts {pre post : List Text} {p : Text} (hp : p ∈ gap_parts pre post) :
    p = [] ∨ p ∈ pre ∨ p ∈ post := by
  rw [gap_parts, List.mem_append, List.mem_append, List.mem_singleton] at hp
  rcases hp with (h | h) | h
  · by_cases hpre : pre = []
    · rw [if_pos hpre, List.mem_singleton] at h
      exact Or.inl h
    · rw [if_neg hpre] at h
      exact Or.inr (Or.inl h)
  · exact Or.inl h
  · by_cases hpost : post = []
    · rw [if_pos hpost, List.mem_singleton] at h
      exact Or.inl h
    · rw [if_neg hpost] at h
      exact Or.inr (Or.inr h)

/-- Eliding invents no part. -/
theorem mem_compress_hextets {hextets : List Text} {p : Text}
    (hp : p ∈ compress_hextets hextets) : p = [] ∨ p ∈ hextets := by
  rcases compress_hextets_cases hextets with h | ⟨pre, post, k, -, heq, h⟩
  · rw [h] at hp
    exact Or.inr hp
  · rw [h] at hp
    rw [heq]
    rcases mem_gap_parts hp with h0 | h0 | h0
    · exact Or.inl h0
    · exact Or.inr (by simp [h0])
    · exact Or.inr (by simp [h0])

/-- The characters of a printed part of an IPv6 address. -/
theorem mem_ipv6_part {n : ℕ} {p : Text} {c : Char}
    (hp : p ∈ compress_hextets ((be_digits 65536 8 n).map to_hex)) (hc : c ∈ p) :
    is_hex_lower c = true := by
  rcases mem_compress_hextets hp with rfl | h
  · simp at hc
  · obtain ⟨d, -, rfl⟩ := List.mem_map.mp h
    exact mem_to_hex hc

/-- The characters of a printed IPv6 address. -/
theorem mem_ipv6_str {n : ℕ} {c : Char} (hc : c ∈ ipv6_str n) :
    c = ':' ∨ is_hex_lower c = true := by
  rcases mem_join hc with h | ⟨p, hp, h⟩
  · exact Or.inl h
  · exact Or.inr (mem_ipv6_part hp h)

theorem not_mem_ipv6_str {n : ℕ} {c : Char} (h1 : c ≠ ':') (h2 : is_hex_lower c = false) :
    c ∉ ipv6_str n := by
  intro hc
  rcases mem_ipv6_str hc with h | h
  · exact h1 h
  · rw [h] at h2
    exact absurd h2 (by decide)

theorem gap_parts_length (pre post : List Text) : 3 ≤ (gap_parts pre post).length := by
  rw [gap_parts]
  cases pre <;> cases post <;> simp
  omega

theorem compress_hextets_length (hextets : List Text) (h : hextets.length = 8) :
    3 ≤ (compress_hextets hextets).length := by
  rcases compress_hextets_cases hextets with hc | ⟨pre, post, k, -, -, hc⟩
  · rw [hc]
    omega
  · rw [hc]
    exact gap_parts_length pre post

theorem split_ipv6_str (n : ℕ) :
    split ':' (ipv6_str n) = compress_hextets ((be_digits 65536 8 n).map to_hex) := by
  apply split_join
  · intro h
    have hlen := compress_hextets_length ((be_digits 65536 8 n).map to_hex) (by simp)
    rw [h] at hlen
    simp at hlen
  · intro p hp hcolon
    exact absurd (mem_ipv6_part hp hcolon) (by decide)

/-- The parts of a printed address read back as its number. The elided run is put
back as the zeros it stands for. -/
theorem ipv6_int_from_parts_compress {n : ℕ} (hn : n < 2 ^ 128) :
    ipv6_int_from_parts (compress_hextets ((be_digits 65536 8 n).map to_hex)) = some n := by
  have hlt : ∀ d ∈ be_digits 65536 8 n, d < 65536 :=
    fun d hd => mem_be_digits (by norm_num) hd
  have hval : of_digits 65536 0 (be_digits 65536 8 n) = n :=
    of_digits_be_digits (lt_of_lt_of_eq hn (by norm_num))
  rcases compress_hextets_cases ((be_digits 65536 8 n).map to_hex) with
    hc | ⟨pre, post, k, hk, heq, hc⟩
  · rw [hc, ipv6_int_from_parts_full (be_digits_length _ _ _) hlt, hval]
  · -- pull the decomposition back from the printed hextets to the numbers
    have hlen : pre.length + k + post.length = 8 := by
      have h := congrArg List.length heq
      simp only [List.length_map, be_digits_length, List.length_append,
        List.length_replicate] at h
      omega
    obtain ⟨xs, ds, hsplit, hxs, hpost⟩ := List.map_eq_append_iff.mp heq
    obtain ⟨ps, zs, rfl, hpre, hzs⟩ := List.map_eq_append_iff.mp hxs
    have hz : zs = List.replicate k 0 := by
      apply (List.map_injective_iff.mpr to_hex_injective)
      rw [hzs, List.map_replicate, to_hex_zero]
    subst hz
    rw [← hpre, ← hpost, List.length_map, List.length_map] at hlen
    have hmem : ∀ d, d ∈ ps ∨ d ∈ ds → d < 65536 := by
      intro d hd
      apply hlt
      rw [hsplit]
      rcases hd with h | h <;> simp [h]
    have hgap : 8 - (ps.length + ds.length) = k := by omega
    rw [hc, ← hpre, ← hpost, ipv6_int_from_parts_gap (fun d hd => hmem d (Or.inl hd))
      (fun d hd => hmem d (Or.inr hd)) (by omega), hgap]
    rw [hsplit, of_digits_append, of_digits_append, of_digits_replicate_zero] at hval
    rw [hval]

theorem ipv6_int_from_string_str (ip : Fin (2 ^ 128)) :
    ipv6_int_from_string (ipv6_str ip.val) = some ip.val := by
  have hparts := split_ipv6_str ip.val
  have hlen := compress_hextets_length ((be_digits 65536 8 ip.val).map to_hex) (by simp)
  have hne : ipv6_str ip.val ≠ [] := by
    intro h
    rw [h] at hparts
    rw [← hparts] at hlen
    simp [split] at hlen
  have hexpand : expand_ipv4_suffix (compress_hextets ((be_digits 65536 8 ip.val).map to_hex))
      = some (compress_hextets ((be_digits 65536 8 ip.val).map to_hex)) := by
    rw [expand_ipv4_suffix]
    cases hl : (compress_hextets ((be_digits 65536 8 ip.val).map to_hex)).getLast? with
    | none => rfl
    | some last =>
      have hdot : '.' ∉ last := fun hd =>
        absurd (mem_ipv6_part (List.mem_of_getLast? hl) hd) (by decide)
      dsimp only
      rw [if_neg hdot]
  rw [ipv6_int_from_string, if_neg hne, hparts, if_neg (by omega), hexpand, Option.bind_some,
    ipv6_int_from_parts_compress ip.isLt]

theorem split_scope_id_of_not_mem {ip_str : Text} (h : '%' ∉ ip_str) :
    split_scope_id ip_str = some (ip_str, none) := by
  have hdrop : ip_str.dropWhile (· ≠ '%') = [] := by
    rw [List.dropWhile_eq_nil_iff]
    intro c hc
    rw [decide_eq_true_eq]
    rintro rfl
    exact h hc
  rw [split_scope_id, hdrop]

theorem split_scope_id_append {addr scope : Text} (haddr : '%' ∉ addr) (hne : scope ≠ [])
    (hscope : '%' ∉ scope) : split_scope_id (addr ++ '%' :: scope) = some (addr, some scope) := by
  have hkeep : ∀ c ∈ addr, decide (c ≠ '%') = true := by
    intro c hc
    rw [decide_eq_true_eq]
    rintro rfl
    exact haddr hc
  rw [split_scope_id, List.dropWhile_append_of_pos hkeep, List.takeWhile_append_of_pos hkeep,
    List.dropWhile_cons_of_neg (by decide), List.takeWhile_cons_of_neg (by decide),
    List.append_nil]
  dsimp only
  rw [if_neg (by simp [hne, hscope])]

/-- The two parts of a text with a scope id, each without a `%`. -/
theorem split_scope_id_eq_some {ip_str addr scope : Text}
    (h : split_scope_id ip_str = some (addr, some scope)) :
    ip_str = addr ++ '%' :: scope ∧ scope ≠ [] ∧ '%' ∉ scope := by
  have hparts := List.takeWhile_append_dropWhile (p := (· ≠ '%')) (l := ip_str)
  unfold split_scope_id at h
  split at h
  · cases h
  · rename_i c rest hdrop
    split at h
    · cases h
    · rename_i hscope
      cases h
      rw [not_or] at hscope
      have hc : c = '%' := by
        have hhead := List.head?_dropWhile_not (· ≠ '%') ip_str
        rw [hdrop] at hhead
        simpa using hhead
      rw [hdrop, hc] at hparts
      exact ⟨hparts.symm, hscope⟩

theorem ipv6_address_str (ip : Fin (2 ^ 128)) : ipv6_address (ipv6_str ip.val) = some ip := by
  have hslash : '/' ∉ ipv6_str ip.val := not_mem_ipv6_str (by decide) (by decide)
  have hscope : '%' ∉ ipv6_str ip.val := not_mem_ipv6_str (by decide) (by decide)
  rw [ipv6_address, if_neg hslash, split_scope_id_of_not_mem hscope, Option.bind_some,
    ipv6_int_from_string_str, Option.bind_some, dif_pos ip.isLt]

/-- An IPv4 literal holds digits and dots only. -/
theorem ipv4_address_of_mem {s : Text} {c : Char} (hc : c ∈ s) (hdot : c ≠ '.')
    (hdigit : is_digit c = false) : ipv4_address s = none := by
  have hjoin : join '.' (split '.' s) = s := List.intercalate_splitOn '.'
  rw [← hjoin] at hc
  obtain rfl | ⟨p, hp, hmem⟩ := mem_join hc
  · exact absurd rfl hdot
  -- so the part that holds the character is no octet
  have hoctet : parse_octet p = none := by
    have hall : p.all is_digit = false := by
      rw [← Bool.not_eq_true, List.all_eq_true]
      intro h
      rw [h c hmem] at hdigit
      cases hdigit
    rw [parse_octet, if_neg (List.ne_nil_of_mem hmem), if_pos (by rw [hall]; rfl)]
  have hparts : ∀ parts : List Text, p ∈ parts → parts.mapM parse_octet = none := by
    intro parts
    induction parts with
    | nil => exact fun h => absurd h List.not_mem_nil
    | cons q parts ih =>
      intro h
      rw [List.mapM_cons]
      rcases List.mem_cons.mp h with rfl | h
      · rw [hoctet]
        rfl
      · cases hq : parse_octet q with
        | none => rfl
        | some n =>
          rw [ih h]
          rfl
  unfold ipv4_address ipv4_int_from_string
  split
  · rfl
  split
  · rfl
  split
  · rfl
  · rw [hparts _ hp]
    rfl

theorem ipv4_address_ipv6_str (n : ℕ) : ipv4_address (ipv6_str n) = none := by
  have hdot : '.' ∉ ipv6_str n := not_mem_ipv6_str (by decide) (by decide)
  have hslash : '/' ∉ ipv6_str n := not_mem_ipv6_str (by decide) (by decide)
  have hne : ipv6_str n ≠ [] := by
    intro h
    have hparts := split_ipv6_str n
    rw [h] at hparts
    have hlen := compress_hextets_length ((be_digits 65536 8 n).map to_hex) (by simp)
    rw [← hparts] at hlen
    simp [split] at hlen
  rw [ipv4_address, if_neg hslash, ipv4_int_from_string, if_neg hne, split_of_not_mem hdot]
  rfl

/-- Reading a printed address gives the address. -/
@[simp] theorem ip_address_str (a : IPAddress) : ip_address a.str = some a := by
  cases a with
  | v4 ip => rw [IPAddress.str, ip_address, ipv4_address_str]
  | v6 ip => rw [IPAddress.str, ip_address, ipv4_address_ipv6_str, ipv6_address_str, Option.map_some]

/-- `address.compressed`: the printed number, and the scope id an IPv6 literal had. -/
def IPAddress.compressed (a : IPAddress) (scope_id : Option Text) : Text :=
  match a, scope_id with
  | .v6 ip, some scope => ipv6_str ip.val ++ '%' :: scope
  | _, _ => a.str

@[simp] theorem IPAddress.compressed_none (a : IPAddress) : a.compressed none = a.str := by
  cases a <;> rfl

@[simp] theorem IPAddress.compressed_v4 (ip : Fin (2 ^ 32)) (scope_id : Option Text) :
    (IPAddress.v4 ip).compressed scope_id = (IPAddress.v4 ip).str := by
  cases scope_id <;> rfl

/-- An address that was read is read back from what `compressed` prints. -/
theorem ip_address_compressed {address : Text} {a : IPAddress} (h : ip_address address = some a) :
    ip_address (a.compressed (scope_id address)) = some a := by
  cases hscope : scope_id address with
  | none => rw [IPAddress.compressed_none, ip_address_str]
  | some scope =>
    cases a with
    | v4 ip => rw [IPAddress.compressed_v4, ip_address_str]
    | v6 ip =>
      obtain ⟨⟨addr, scope'⟩, hsplit, rfl⟩ := Option.bind_eq_some_iff.mp hscope
      obtain ⟨rfl, hne, hpercent⟩ := split_scope_id_eq_some hsplit
      -- the literal was read as IPv6, so its scope id holds no slash
      have hslash : '/' ∉ addr ++ '%' :: scope := by
        intro hmem
        rw [ip_address] at h
        split at h
        · cases h
        · rw [ipv6_address, if_pos hmem] at h
          cases h
      have hmem : ∀ {c : Char}, c ≠ ':' → is_hex_lower c = false → c ∉ ipv6_str ip.val :=
        fun h1 h2 => not_mem_ipv6_str h1 h2
      have hslash' : '/' ∉ ipv6_str ip.val ++ '%' :: scope := by
        rw [List.mem_append, List.mem_cons] at hslash ⊢
        rintro (h' | h' | h')
        · exact hmem (by decide) (by decide) h'
        · exact absurd h' (by decide)
        · exact hslash (.inr (.inr h'))
      have hv4 : ipv4_address (ipv6_str ip.val ++ '%' :: scope) = none :=
        ipv4_address_of_mem (List.mem_append_right _ List.mem_cons_self) (by decide) (by decide)
      rw [IPAddress.compressed, ip_address, hv4, ipv6_address, if_neg hslash',
        split_scope_id_append (hmem (by decide) (by decide)) hne hpercent, Option.bind_some,
        ipv6_int_from_string_str, Option.bind_some, dif_pos ip.isLt]
      rfl

theorem IPAddress.str_injective : Function.Injective IPAddress.str := by
  intro a b h
  have ha := ip_address_str a
  rw [h, ip_address_str] at ha
  exact (Option.some.inj ha).symm

/-- The characters of a printed address. -/
theorem IPAddress.mem_str {a : IPAddress} {c : Char} (hc : c ∈ a.str) :
    c = '.' ∨ c = ':' ∨ is_hex_lower c = true := by
  cases a with
  | v4 ip =>
    rcases mem_ipv4_str hc with h | h
    · exact Or.inl h
    · exact Or.inr (Or.inr (by rw [is_hex_lower, h]; rfl))
  | v6 ip =>
    rcases mem_ipv6_str hc with h | h
    · exact Or.inr (Or.inl h)
    · exact Or.inr (Or.inr h)

theorem IPAddress.not_mem_str {a : IPAddress} {c : Char} (h1 : c ≠ '.') (h2 : c ≠ ':')
    (h3 : is_hex_lower c = false) : c ∉ a.str := by
  intro hc
  rcases IPAddress.mem_str hc with h | h | h
  · exact h1 h
  · exact h2 h
  · rw [h] at h3
    exact absurd h3 (by decide)

/-- A printed number has no scope id. -/
theorem not_percent_mem_str (a : IPAddress) : '%' ∉ a.str :=
  IPAddress.not_mem_str (by decide) (by decide) (by decide)

/-! ## How long a printed address is

The bounds behind the length of requests. -/

theorem ipv4_str_length_le (n : ℕ) : (ipv4_str n).length ≤ 15 := by
  have hd : ∀ d, d < 256 → (to_dec d).length ≤ 3 :=
    fun d hd => (to_dec_length_le (by norm_num)).mpr (by omega)
  have h0 := hd (n / 256 / 256 / 256 % 256) (by omega)
  have h1 := hd (n / 256 / 256 % 256) (by omega)
  have h2 := hd (n / 256 % 256) (by omega)
  have h3 := hd (n % 256) (by omega)
  rw [ipv4_str, join_length]
  simp only [be_digits, List.nil_append, List.cons_append, List.map_cons, List.map_nil,
    List.sum_cons, List.sum_nil, List.length_cons, List.length_nil]
  omega

/-- Printed hextets are at most four characters each. -/
theorem sum_length_hextets_le (ps : List Text) (h : ∀ p ∈ ps, p.length ≤ 4) :
    (ps.map List.length).sum ≤ 4 * ps.length := by
  induction ps with
  | nil => simp
  | cons p ps ih =>
    have hp := h p (by simp)
    have ih' := ih (fun q hq => h q (List.mem_cons_of_mem _ hq))
    simp only [List.map_cons, List.sum_cons, List.length_cons]
    omega

theorem ipv6_str_length_le (n : ℕ) : (ipv6_str n).length ≤ 39 := by
  have hex : ∀ p ∈ (be_digits 65536 8 n).map to_hex, p.length ≤ 4 := by
    intro p hp
    obtain ⟨d, hd, rfl⟩ := List.mem_map.mp hp
    have hlt := mem_be_digits (b := 65536) (by norm_num) hd
    exact (to_hex_length_le (by norm_num)).mpr (by omega)
  rw [ipv6_str, join_length]
  rcases compress_hextets_cases ((be_digits 65536 8 n).map to_hex) with
    hc | ⟨pre, post, k, hk, heq, hc⟩
  · have hsum := sum_length_hextets_le _ hex
    rw [List.length_map, be_digits_length] at hsum
    rw [hc, List.length_map, be_digits_length]
    omega
  · have hlen : pre.length + k + post.length = 8 := by
      have h := congrArg List.length heq
      simp only [List.length_map, be_digits_length, List.length_append,
        List.length_replicate] at h
      omega
    have hpre := sum_length_hextets_le pre (fun p hp => hex p (by rw [heq]; simp [hp]))
    have hpost := sum_length_hextets_le post (fun p hp => hex p (by rw [heq]; simp [hp]))
    rw [hc, gap_parts]
    split_ifs <;>
      simp only [List.map_append, List.sum_append, List.map_cons, List.map_nil, List.sum_cons,
        List.sum_nil, List.length_append, List.length_singleton, List.length_nil] <;>
      omega

theorem IPAddress.str_length_le (a : IPAddress) : a.str.length ≤ 39 := by
  cases a with
  | v4 ip => exact le_trans (ipv4_str_length_le _) (by norm_num)
  | v6 ip => exact ipv6_str_length_le _

example : ip_address "2001:DB8:0:0:0::1".toList = ip_address "2001:db8::1".toList := by decide
example : (ip_address "::ffff:192.0.2.1".toList).map IPAddress.is_protected = some true := by decide

/-! ## Networks

A network is read with `strict` where it has to be written with its host bits cleared, and without
where they are cleared for it. -/

/-- An `IPv4Network` (`w = 32`) or `IPv6Network` (`w = 128`). The host bits of the
network address are zero, as the class keeps them. -/
structure Net (w : ℕ) where
  network_address : ℕ
  prefixlen : ℕ
  prefixlen_le : prefixlen ≤ w
  network_address_lt : network_address < 2 ^ w
  host_bits : 2 ^ (w - prefixlen) ∣ network_address
  deriving DecidableEq

namespace Net

variable {w : ℕ}

/-- `network.num_addresses`. -/
def num_addresses (n : Net w) : ℕ := 2 ^ (w - n.prefixlen)

/-- `int(network.broadcast_address)`: the network address with every host bit set. -/
def broadcast_address (n : Net w) : ℕ := n.network_address + (n.num_addresses - 1)

/-- `address in network`: clearing the host bits of the address gives the network address. -/
def Contains (n : Net w) (a : ℕ) : Prop := a - a % n.num_addresses = n.network_address

instance (n : Net w) (a : ℕ) : Decidable (n.Contains a) :=
  inferInstanceAs (Decidable (_ = _))

theorem num_addresses_pos (n : Net w) : 0 < n.num_addresses := Nat.two_pow_pos _

/-- A network is the interval from its network address to its broadcast address. -/
theorem contains_iff (n : Net w) (a : ℕ) :
    n.Contains a ↔ n.network_address ≤ a ∧ a ≤ n.broadcast_address := by
  have hpos := n.num_addresses_pos
  obtain ⟨q, hq⟩ : n.num_addresses ∣ n.network_address := n.host_bits
  have hmod := Nat.mod_lt a hpos
  have hdiv := Nat.div_add_mod a n.num_addresses
  rw [Contains, broadcast_address]
  constructor
  · intro h
    omega
  · rintro ⟨hlo, hhi⟩
    have hquot : a / n.num_addresses = q := by
      rw [Nat.div_eq_iff hpos, Nat.mul_comm q]
      omega
    rw [hquot] at hdiv
    omega

/-- `network_address` and `prefixlen` of a host address with a given prefix
length; `strict` refuses host bits. -/
def make (strict : Bool) (ip : Fin (2 ^ w)) (prefixlen : ℕ) : Option (Net w) :=
  if hp : prefixlen ≤ w then
    if strict ∧ ip.val % 2 ^ (w - prefixlen) ≠ 0 then none
    else
      some
        { network_address := ip.val - ip.val % 2 ^ (w - prefixlen)
          prefixlen := prefixlen
          prefixlen_le := hp
          network_address_lt := lt_of_le_of_lt (Nat.sub_le _ _) ip.isLt
          host_bits := Nat.dvd_sub_mod ip.val }
  else none

end Net

/-- An `IPv4Network` or an `IPv6Network`. -/
inductive IPNetwork
  | v4 (net : Net 32)
  | v6 (net : Net 128)
  deriving DecidableEq

namespace IPNetwork

def version : IPNetwork → Version
  | .v4 _ => .four
  | .v6 _ => .six

/-- `int(network.network_address)`. -/
def first : IPNetwork → ℕ
  | .v4 net => net.network_address
  | .v6 net => net.network_address

/-- `int(network.broadcast_address)`. -/
def last : IPNetwork → ℕ
  | .v4 net => net.broadcast_address
  | .v6 net => net.broadcast_address

/-- `address in network`, false across families. -/
def Contains : IPNetwork → IPAddress → Prop
  | .v4 net, .v4 ip => net.Contains ip.val
  | .v6 net, .v6 ip => net.Contains ip.val
  | _, _ => False

instance : ∀ (n : IPNetwork) (a : IPAddress), Decidable (n.Contains a)
  | .v4 net, .v4 ip => inferInstanceAs (Decidable (net.Contains ip.val))
  | .v6 net, .v6 ip => inferInstanceAs (Decidable (net.Contains ip.val))
  | .v4 _, .v6 _ => isFalse not_false
  | .v6 _, .v4 _ => isFalse not_false

theorem contains_iff (n : IPNetwork) (a : IPAddress) :
    n.Contains a ↔ n.version = a.version ∧ n.first ≤ a.toNat ∧ a.toNat ≤ n.last := by
  cases n with
  | v4 net =>
    cases a with
    | v4 ip => simp [Contains, version, IPAddress.version, net.contains_iff, first, last,
        IPAddress.toNat]
    | v6 ip => simp [Contains, version, IPAddress.version]
  | v6 net =>
    cases a with
    | v4 ip => simp [Contains, version, IPAddress.version]
    | v6 ip => simp [Contains, version, IPAddress.version, net.contains_iff, first, last,
        IPAddress.toNat]

theorem first_le_last (n : IPNetwork) : n.first ≤ n.last := by
  cases n with
  | v4 net => exact Nat.le_add_right _ _
  | v6 net => exact Nat.le_add_right _ _

end IPNetwork

/-- `_prefix_from_prefix_string`. -/
def prefix_from_prefix_string (width : ℕ) (prefixlen_str : Text) : Option ℕ :=
  if prefixlen_str = [] ∨ !prefixlen_str.all is_digit then none
  else if width < of_dec prefixlen_str then none
  else some (of_dec prefixlen_str)

/-- `_count_righthand_zero_bits`. -/
def count_righthand_zero_bits (number bits : ℕ) : ℕ :=
  ((List.range bits).find? (fun i => number.testBit i)).getD bits

/-- `_prefix_from_ip_int`: the length of a netmask written as an address. -/
def prefix_from_ip_int (ip_int : ℕ) : Option ℕ :=
  let trailing_zeroes := count_righthand_zero_bits ip_int 32
  let prefixlen := 32 - trailing_zeroes
  if ip_int / 2 ^ trailing_zeroes = 2 ^ prefixlen - 1 then some prefixlen else none

/-- `_prefix_from_ip_string`: a netmask, or failing that a hostmask. -/
def prefix_from_ip_string (ip_str : Text) : Option ℕ :=
  (ipv4_int_from_string ip_str).bind (fun ip_int =>
    (prefix_from_ip_int ip_int).orElse (fun _ => prefix_from_ip_int (2 ^ 32 - 1 - ip_int)))

/-- `IPv4Network._make_netmask` of a text: a prefix length, or a mask written as an address. -/
def ipv4_make_netmask (arg : Text) : Option ℕ :=
  (prefix_from_prefix_string 32 arg).orElse (fun _ => prefix_from_ip_string arg)

/-- `ipaddress.ip_network(text, strict)`; `none` is its `ValueError`. A text whose
address part is IPv4 is never an IPv6 network, so one match on it decides the family. No
caller hands it a scope id: the readers of a whitelist refuse `%`, and `pfctl` prints none. -/
def ip_network (strict : Bool) (address : Text) : Option IPNetwork :=
  if '%' ∈ address then none
  else
    match split '/' address with
    | [addr] =>
        match ipv4_address addr with
        | some ip => (Net.make strict ip 32).map .v4
        | none => (ipv6_address addr).bind (fun ip => (Net.make strict ip 128).map .v6)
    | [addr, mask] =>
        match ipv4_address addr with
        | some ip =>
            (ipv4_make_netmask mask).bind (fun prefixlen => (Net.make strict ip prefixlen).map .v4)
        | none =>
            (ipv6_address addr).bind (fun ip =>
              (prefix_from_prefix_string 128 mask).bind (fun prefixlen =>
                (Net.make strict ip prefixlen).map .v6))
    | _ => none

example : (ip_network false "192.0.2.77/24".toList).map IPNetwork.first = some 0xc0000200 := by decide
example : (ip_network true "192.0.2.77/24".toList).isNone := by decide

end F2bguard.Ipaddress
