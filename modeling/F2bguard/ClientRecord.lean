/-
The record of a client, as the clients page builds it.

A posted client that passes `f2bguard_validate_client` becomes a `ClientRecord`: texts of the
right form, fingerprints in lower case, nothing twice. Such a record survives everything that
is done to it afterwards. It is written to JSON and read back as it was, it passes
`f2bguard_validate_runtime_clients` unchanged, and by itself it is a client to the receiver.
What is said here is about one record; that the ids of a list are distinct, and that its
fingerprints need not be, is `PageRuns` and `RuntimeAgreement`.
-/
import F2bguard.Pages
import F2bguard.Payloads

set_option autoImplicit false

namespace F2bguard.Pages

open F2bguard.PyText F2bguard.PyJson F2bguard.Ipaddress F2bguard.Alias F2bguard.ConfigStore
open F2bguard.Runtime F2bguard.ReceiverConfig
open F2bguard.Php hiding is_space

/-! ## Patterns

The pages match with a dollar that allows one newline at the end. The texts of a form are
trimmed or split at blanks before they are matched, so there is none. -/

theorem identifier_char_plain {c : Char} (h : is_identifier_char c = true) : PlainChar c := by
  rw [is_identifier_char, Bool.or_eq_true, decide_eq_true_eq] at h
  rcases h with h | h
  · exact Sender.plainChar_of_id_start h
  · revert h c
    decide

theorem hex_alnum {c : Char} (h : is_hex c = true) : is_alnum c = true := by
  simp only [is_hex, is_alnum, Bool.or_eq_true, Bool.and_eq_true, decide_eq_true_eq] at h ⊢
  rcases h with (⟨hge, hle⟩ | ⟨hge, hle⟩) | h
  · have hle' : c.toNat ≤ 102 := hle
    exact .inl (.inr ⟨hge, show c.toNat ≤ 122 by omega⟩)
  · have hle' : c.toNat ≤ 70 := hle
    exact .inl (.inl ⟨hge, show c.toNat ≤ 90 by omega⟩)
  · exact .inr h

theorem identifier_chars {s : Text} (h : identifier s = true) :
    ∀ c ∈ s, is_identifier_char c = true := by
  cases s with
  | nil => exact fun c hc => absurd hc List.not_mem_nil
  | cons c cs =>
    rw [identifier, Bool.and_eq_true, Bool.and_eq_true, List.all_eq_true] at h
    intro d hd
    rcases List.mem_cons.mp hd with rfl | hd
    · rw [is_identifier_char, h.1.1, Bool.true_or]
    · exact h.1.2 d hd

theorem fingerprint_chars {s : Text} (h : fingerprint s = true) : ∀ c ∈ s, is_hex c = true := by
  rw [fingerprint, Bool.and_eq_true, List.all_eq_true] at h
  exact h.1

theorem last_of_plain {s : Text} (h : PlainText s) : s.getLast? ≠ some '\n' := by
  intro hlast
  exact absurd (h _ (List.mem_of_getLast? hlast)) (by decide)

theorem identifier_plain {s : Text} (h : identifier s = true) : PlainText s :=
  fun c hc => identifier_char_plain (identifier_chars h c hc)

theorem fingerprint_plain {s : Text} (h : fingerprint s = true) : PlainText s :=
  fun c hc => Sender.plainChar_of_id_start (hex_alnum (fingerprint_chars h c hc))

theorem identifier_re_of {s : Text} (h : identifier s = true) : identifier_re s = true := by
  rw [identifier_re, at_end_of_last (last_of_plain (identifier_plain h)), h]

theorem fingerprint_re_of {s : Text} (h : fingerprint s = true) :
    Runtime.fingerprint_re s = true := by
  rw [Runtime.fingerprint_re, at_end_of_last (last_of_plain (fingerprint_plain h)), h]

theorem lower_hex {c : Char} (h : is_hex c = true) : is_hex (ascii_lower c) = true := by
  by_cases hupper : 'A' ≤ c ∧ c ≤ 'Z'
  · have hlower := ascii_lower_upper hupper
    have hge : 65 ≤ c.toNat := hupper.1
    have hle : c.toNat ≤ 70 := by
      simp only [is_hex, Bool.or_eq_true, Bool.and_eq_true, decide_eq_true_eq] at h
      have hz : c.toNat ≤ 90 := hupper.2
      rcases h with (⟨hge', -⟩ | ⟨-, hle'⟩) | ⟨-, hle'⟩
      · have hge' : 97 ≤ c.toNat := hge'
        omega
      · exact hle'
      · have hle' : c.toNat ≤ 57 := hle'
        omega
    generalize ascii_lower c = d at hlower ⊢
    simp only [is_hex, Bool.or_eq_true, Bool.and_eq_true, decide_eq_true_eq]
    refine .inl (.inl ⟨?_, ?_⟩)
    · show 97 ≤ d.toNat
      omega
    · show d.toNat ≤ 102
      omega
  · rw [show ascii_lower c = c from if_neg hupper]
    exact h

theorem fingerprint_lower {s : Text} (h : fingerprint s = true) :
    fingerprint (strtolower s) = true := by
  have hchars := fingerprint_chars h
  rw [fingerprint, Bool.and_eq_true] at h ⊢
  refine ⟨?_, by rw [strtolower, List.length_map]; exact h.2⟩
  rw [List.all_eq_true]
  intro c hc
  obtain ⟨d, hd, rfl⟩ := List.mem_map.mp hc
  exact lower_hex (hchars d hd)

/-! ## To the receiver

The patterns of the receiver are wider for identifiers and the same for fingerprints. -/

/-- The receiver allows longer identifiers. -/
theorem id_re_of_identifier {s : Text} (h : identifier s = true) : Claims.id_re s = true := by
  cases s with
  | nil => cases h
  | cons c cs =>
    rw [identifier, Bool.and_eq_true, Bool.and_eq_true, List.all_eq_true, decide_eq_true_eq] at h
    rw [Claims.id_re, Bool.and_eq_true, Bool.and_eq_true, List.all_eq_true, decide_eq_true_eq]
    refine ⟨⟨h.1.1, fun d hd => ?_⟩, by omega⟩
    have hd' := h.1.2 d hd
    simp only [is_identifier_char, Bool.or_eq_true, decide_eq_true_eq, List.mem_cons,
      List.not_mem_nil, or_false] at hd'
    simp only [Claims.is_id_char, Bool.or_eq_true, decide_eq_true_eq]
    rcases hd' with hd' | hd' | hd' | hd' | hd'
    · exact .inl (.inl (.inl (.inl hd')))
    · exact .inl (.inl (.inl (.inr hd')))
    · exact .inl (.inl (.inr hd'))
    · exact .inl (.inr hd')
    · exact .inr hd'

theorem receiver_fingerprint {s : Text} (h : fingerprint s = true) :
    ReceiverConfig.fingerprint_re s = true := by
  rw [fingerprint, Bool.and_eq_true, List.all_eq_true] at h
  rw [ReceiverConfig.fingerprint_re, Bool.and_eq_true, List.all_eq_true]
  refine ⟨fun c hc => ?_, h.2⟩
  have hhex := h.1 c hc
  simp only [is_hex, is_hex_digit, Bool.or_eq_true] at hhex ⊢
  tauto

/-! ## Records

A record carries its own checks, so what is proved about one record holds of every list of them.
-/

/-- A client whose members are valid by themselves. Whether another client has the same id or a
fingerprint is nothing a record can say. -/
structure ClientRecord extends ClientFields where
  valid_id : identifier id = true
  some_fingerprint : cert_sha256 ≠ []
  valid_fingerprints : ∀ f ∈ cert_sha256, fingerprint f = true
  lower_fingerprints : ∀ f ∈ cert_sha256, strtolower f = f
  distinct_fingerprints : cert_sha256.Nodup
  some_jail : allowed_jails ≠ []
  valid_jails : ∀ jail ∈ allowed_jails, identifier jail = true
  distinct_jails : allowed_jails.Nodup

namespace ClientRecord

def value (r : ClientRecord) : Value := client_record r.id r.cert_sha256 r.allowed_jails

theorem parsable (r : ClientRecord) : r.toClientFields.Parsable where
  id := id_re_of_identifier r.valid_id
  some_fingerprint := r.some_fingerprint
  fingerprints := fun f hf => receiver_fingerprint (r.valid_fingerprints f hf)
  some_jail := r.some_jail
  jails := fun jail hjail => id_re_of_identifier (r.valid_jails jail hjail)
  distinct_jails := r.distinct_jails

theorem lowered (r : ClientRecord) : r.cert_sha256.map strtolower = r.cert_sha256 := by
  conv_rhs => rw [← List.map_id r.cert_sha256]
  exact List.map_congr_left r.lower_fingerprints

/-- JSON gives the record back. -/
theorem plain (r : ClientRecord) : Plain r.value := by
  have hnames : ∀ member ∈ ["id".toList, "cert_sha256".toList, "allowed_jails".toList],
      PlainText member ∧ key_of member = .str member := by decide
  have hdistinct : ["id".toList, "cert_sha256".toList, "allowed_jails".toList].Nodup := by decide
  rw [List.forall_mem_cons, List.forall_mem_cons, List.forall_mem_singleton] at hnames
  obtain ⟨hid, hfps, hjails⟩ := hnames
  refine .inr ⟨[("id".toList, .str r.id), ("cert_sha256".toList, of_list (r.cert_sha256.map .str)),
    ("allowed_jails".toList, of_list (r.allowed_jails.map .str))], List.cons_ne_nil _ _, hdistinct,
    ?_, rfl⟩
  rw [List.forall_mem_cons, List.forall_mem_cons, List.forall_mem_singleton]
  exact ⟨⟨hid.1, hid.2, .inl ⟨_, identifier_plain r.valid_id, rfl⟩⟩,
    ⟨hfps.1, hfps.2, .inr ⟨_, fun s hs => fingerprint_plain (r.valid_fingerprints s hs), rfl⟩⟩,
    ⟨hjails.1, hjails.2, .inr ⟨_, fun s hs => identifier_plain (r.valid_jails s hs), rfl⟩⟩⟩

theorem matching_all {pattern : Text → Bool} {texts : List Text}
    (h : ∀ s ∈ texts, pattern s = true) :
    matching pattern (of_list (texts.map Value.str)).items = texts := by
  rw [matching, array_values_of_list]
  induction texts with
  | nil => rfl
  | cons s texts ih =>
    rw [List.forall_mem_cons] at h
    rw [List.map_cons, List.filterMap_cons_some (by dsimp only; rw [h.1, if_pos rfl]), ih h.2]

/-! The members of a record, as they are read with their defaults. -/

theorem get_id (php : Library) (r : ClientRecord) :
    php.array_get_path r.value [name "id"] (.str []) = .str r.id :=
  php.get_entry_text rfl

theorem get_cert_sha256 (php : Library) (r : ClientRecord) (default : Value) :
    php.array_get_path r.value [name "cert_sha256"] default =
      of_list (r.cert_sha256.map Value.str) :=
  php.get_entry rfl (fun h => (by cases h)) default

theorem get_allowed_jails (php : Library) (r : ClientRecord) (default : Value) :
    php.array_get_path r.value [name "allowed_jails"] default =
      of_list (r.allowed_jails.map Value.str) :=
  php.get_entry rfl (fun h => (by cases h)) default

/-- The checks of the rendering leave the record as it is. -/
theorem runtime (php : Library) (r : ClientRecord) :
    validate_runtime_client php r.value = .ok r.value := by
  have hid : to_text php (php.array_get_path r.value [name "id"] (.str [])) = r.id := by
    rw [r.get_id]
    rfl
  have hfps : matching Runtime.fingerprint_re
      (to_array (php.array_get_path r.value [name "cert_sha256"] (.arr []))) = r.cert_sha256 := by
    rw [r.get_cert_sha256]
    exact matching_all (fun f hf => fingerprint_re_of (r.valid_fingerprints f hf))
  have hjails : matching identifier_re
      (to_array (php.array_get_path r.value [name "allowed_jails"] (.arr []))) = r.allowed_jails := by
    rw [r.get_allowed_jails]
    exact matching_all (fun jail hjail => identifier_re_of (r.valid_jails jail hjail))
  unfold validate_runtime_client
  dsimp only
  rw [hid, hfps, hjails, identifier_re_of r.valid_id, r.lowered,
    array_unique_of_nodup r.distinct_fingerprints, array_unique_of_nodup r.distinct_jails,
    if_neg (by simp [value, client_record, Value.is_array]),
    if_neg (by simp [r.some_fingerprint, r.some_jail])]
  rfl

theorem json (r : ClientRecord) : to_json r.value = r.toClientFields.json := by
  have hlist : ∀ texts : List Text,
      to_json (of_list (texts.map Value.str)) = .arr (texts.map Json.str) := by
    intro texts
    have hstr : to_json ∘ Value.str = Json.str := by
      funext s
      rw [Function.comp_apply, to_json]
    rw [to_json_of_list, List.map_map, hstr]
  rw [value, client_record, to_json, name, is_list_record, if_neg Bool.false_ne_true,
    to_json_members, to_json_members, to_json_members, to_json_members, hlist, hlist, to_json]
  rfl

end ClientRecord

theorem validate_runtime_records (php : Library) (records : List ClientRecord) :
    validate_runtime_clients php (of_list (records.map ClientRecord.value)) =
      .ok (records.map ClientRecord.value) := by
  have harray : array_values (to_array (of_list (records.map ClientRecord.value))) =
      records.map ClientRecord.value := array_values_of_list _
  rw [validate_runtime_clients, harray]
  induction records with
  | nil => rfl
  | cons r records ih =>
    rw [List.map_cons, List.mapM_cons, r.runtime, ih (array_values_of_list _)]
    rfl

/-! ## What the clients page builds

The checks have read the same texts the record is built from: a default that is the empty text, or
none, changes nothing. -/

theorem error_if_eq_nil {test : Bool} {message : Text} :
    error_if test message = [] ↔ test = false := by
  cases test with
  | false => exact iff_of_true rfl rfl
  | true => exact iff_of_false (List.cons_ne_nil _ _) (fun h => (by cases h))

/-- A posted text is the same however the page reads it. -/
theorem posted_text (php : Library) (post : Items) (key : String) :
    to_text php (posted_or post key (.str [])) = to_text php (posted php post key (.str [])) ∧
      to_text php (entry post key) = to_text php (posted php post key (.str [])) := by
  rw [posted_or, entry, posted]
  cases hget : get post (name key) with
  | none =>
    rw [php.get_entry_none hget]
    exact ⟨rfl, rfl⟩
  | some v =>
    rw [php.get_entry_text hget]
    cases v <;> exact ⟨rfl, rfl⟩

theorem posted_list_spec {text piece : Text} (h : piece ∈ posted_list text) :
    piece.getLast? ≠ some '\n' := by
  intro hlast
  have hclass := (mem_preg_split h).2 '\n' (List.mem_of_getLast? hlast)
  exact absurd hclass (by decide)

theorem array_unique_ne_nil {xs : List Text} (h : xs ≠ []) : array_unique xs ≠ [] := by
  obtain ⟨x, rest, rfl⟩ := List.exists_cons_of_ne_nil h
  exact List.ne_nil_of_mem (mem_array_unique.mpr List.mem_cons_self)

/-- A posted client without errors is a record. -/
theorem posted_record_valid {php : Library} {post : Items} (h : validate_client php post = []) :
    ∃ r : ClientRecord, posted_record php post = r.value ∧ r.id = trimmed php post "client_id" := by
  unfold validate_client at h
  dsimp only at h
  simp only [List.append_eq_nil_iff, List.flatMap_eq_nil_iff, validate_identifier, error_if_eq_nil,
    Bool.not_eq_false'] at h
  obtain ⟨⟨⟨⟨hid, hsome⟩, hfps⟩, hsome_jail⟩, hjails⟩ := h
  rw [← (posted_text php post "client_id").1] at hid
  rw [← (posted_text php post "cert_sha256").2] at hsome hfps
  rw [← (posted_text php post "allowed_jails").1] at hsome_jail hjails
  refine ⟨{
    id := trimmed php post "client_id"
    cert_sha256 := array_unique ((posted_list (to_text php (entry post "cert_sha256"))).map strtolower)
    allowed_jails := array_unique (posted_list (to_text php (posted_or post "allowed_jails" (.str []))))
    valid_id := ?_
    some_fingerprint := ?_
    valid_fingerprints := ?_
    lower_fingerprints := ?_
    distinct_fingerprints := array_unique_nodup _
    some_jail := ?_
    valid_jails := ?_
    distinct_jails := array_unique_nodup _ }, rfl, rfl⟩
  · rw [identifier_re, at_end_of_last (trim_getLast _)] at hid
    exact hid
  · refine array_unique_ne_nil (fun hnil => ?_)
    rw [List.map_eq_nil_iff] at hnil
    rw [hnil] at hsome
    cases hsome
  · intro f hf
    obtain ⟨g, hg, rfl⟩ := List.mem_map.mp (mem_array_unique.mp hf)
    have hre := hfps g hg
    rw [Runtime.fingerprint_re, at_end_of_last (posted_list_spec hg)] at hre
    exact fingerprint_lower hre
  · intro f hf
    obtain ⟨g, -, rfl⟩ := List.mem_map.mp (mem_array_unique.mp hf)
    exact strtolower_idem g
  · refine array_unique_ne_nil (fun hnil => ?_)
    rw [hnil] at hsome_jail
    cases hsome_jail
  · intro jail hjail
    have hmem := mem_array_unique.mp hjail
    have hre := hjails jail hmem
    rw [identifier_re, at_end_of_last (posted_list_spec hmem)] at hre
    exact hre

end F2bguard.Pages
