/-
The packet filter, as far as rules in front of other rules need it.

`pf` is no part of the repository. It enters as a `Engine`: what it makes of a text when the text is
loaded, the tables that the loaded rules declare, and what they decide about a packet. The laws are
those of pf.conf(5) for three kinds of lines at the start of a text, and speak of texts that have been
loaded: a comment says nothing, `table <name> persist` declares a table, and a rule with `block in
quick` decides about the packets it matches and about no other. Nothing is assumed about which texts
are loaded, or about the lines that follow.

The filter evaluates its rules for a packet that belongs to no state. What a state lets through it
does not look up in any table, so an address that is banned keeps the connections it has; the package
does not kill them, and nothing here speaks of them.
-/
import F2bguard.PyText

set_option autoImplicit false

namespace F2bguard.PacketFilter

open F2bguard.PyText

/-! ## Packets

What rules like these look at: where the packet comes in, its family, and its source. Ports and
protocols are left out, since none of the rules here mentions them. -/

inductive Family
  | inet
  | inet6
  deriving DecidableEq, Repr

inductive Direction
  | incoming
  | outgoing
  deriving DecidableEq, Repr

inductive Action
  | pass
  | block
  deriving DecidableEq, Repr

structure Packet (α : Type) where
  direction : Direction
  /-- the name of the interface and those of its groups -/
  interfaces : List Text
  family : Family
  source : α

/-! ## Lines

The three kinds of lines that the package writes, as texts. A name in one of them is a word, so
that there is no question of quoting. -/

/-- Letters, digits and `_`: no quoting or escape is needed for such a text. -/
def is_word_char (c : Char) : Bool :=
  ('A' ≤ c && c ≤ 'Z') || ('a' ≤ c && c ≤ 'z') || ('0' ≤ c && c ≤ '9') || c = '_'

def is_word (s : Text) : Bool := s ≠ [] && s.all is_word_char

/-- What may stand in a comment of one line: neither its end nor the backslash that continues it. -/
def is_remark (s : Text) : Bool := s.all (fun c => c ≠ '\n' && c ≠ '\\')

def comment_line (remark : Text) : Text := '#' :: (remark ++ ['\n'])

/-- `table <name> persist` -/
def table_line (table : Text) : Text :=
  "table <".toList ++ (table ++ ("> persist".toList ++ ['\n']))

def family_word : Family → Text
  | .inet => "inet".toList
  | .inet6 => "inet6".toList

/-- The line of a rule up to the name of its table. -/
def block_start (interface : Text) (family : Family) : Text :=
  "block in quick on ".toList ++ (interface ++ ' ' :: (family_word family ++ " from <".toList))

/-- The line of a rule after the name of its table. -/
def block_end (label : Text) : Text := "> to any label \"".toList ++ (label ++ ['"'])

/-- `block in quick on interface inet from <table> to any label "label"` -/
def block_line (interface : Text) (family : Family) (table label : Text) : Text :=
  block_start interface family ++ (table ++ (block_end label ++ ['\n']))

/-- The packet comes in on the interface, and its source is in the table. -/
def Blocked {α : Type} (tables : Text → α → Bool) (packet : Packet α) (interface : Text)
    (family : Family) (table : Text) : Prop :=
  packet.direction = .incoming ∧ interface ∈ packet.interfaces ∧ packet.family = family ∧
    tables table packet.source = true

instance {α : Type} (tables : Text → α → Bool) (packet : Packet α) (interface : Text)
    (family : Family) (table : Text) : Decidable (Blocked tables packet interface family table) :=
  inferInstanceAs (Decidable (_ ∧ _))

/-! ## The filter

The laws are about the first line of a text that was loaded. Each says what this line means and
that the rest of the text would be loaded, too, with the same meaning: all three kinds of lines
are complete by themselves, and none changes how the next one is read. -/

/-- The packet filter, with its laws. -/
structure Engine (α : Type) where
  Ruleset : Type
  /-- `pfctl -f`, `none` when the text is refused -/
  load : Text → Option Ruleset
  /-- the tables that are declared, in order -/
  tables : Ruleset → List Text
  /-- what the rules decide about a packet without a state when the tables hold these addresses -/
  decides : Ruleset → (Text → α → Bool) → Packet α → Action
  /-- the text is the name of an interface -/
  is_interface : Text → Prop
  load_comment : ∀ {remark rest : Text} {rules : Ruleset}, is_remark remark = true →
    load (comment_line remark ++ rest) = some rules → load rest = some rules
  load_table : ∀ {table rest : Text} {rules : Ruleset}, is_word table = true →
    load (table_line table ++ rest) = some rules →
    ∃ others, load rest = some others ∧ tables rules = table :: tables others ∧
      ∀ addresses packet, decides rules addresses packet = decides others addresses packet
  load_block : ∀ {interface table label rest : Text} {family : Family} {rules : Ruleset},
    is_interface interface → is_word table = true → is_word label = true →
    load (block_line interface family table label ++ rest) = some rules →
    ∃ others, load rest = some others ∧ tables rules = tables others ∧
      ∀ addresses packet, decides rules addresses packet =
        if Blocked addresses packet interface family table then .block
        else decides others addresses packet

namespace Engine

variable {α : Type} (filter : Engine α)

/-- What the loaded rules of a text do in front of those of the rest: they declare tables, block some
packets, and leave the others to the rest. -/
structure Before (declared : List Text) (blocked : (Text → α → Bool) → Packet α → Prop)
    (rules others : filter.Ruleset) : Prop where
  tables : filter.tables rules = declared ++ filter.tables others
  blocks : ∀ addresses packet, blocked addresses packet →
    filter.decides rules addresses packet = .block
  leaves : ∀ addresses packet, ¬ blocked addresses packet →
    filter.decides rules addresses packet = filter.decides others addresses packet

variable {filter}

theorem Before.refl (rules : filter.Ruleset) : filter.Before [] (fun _ _ => False) rules rules :=
  ⟨rfl, fun _ _ h => h.elim, fun _ _ _ => rfl⟩

/-- One text in front of another. -/
theorem Before.trans {declared declared' : List Text}
    {blocked blocked' : (Text → α → Bool) → Packet α → Prop} {rules others last : filter.Ruleset}
    (h : filter.Before declared blocked rules others)
    (h' : filter.Before declared' blocked' others last) :
    filter.Before (declared ++ declared')
      (fun addresses packet => blocked addresses packet ∨ blocked' addresses packet) rules last where
  tables := by rw [h.tables, h'.tables, List.append_assoc]
  blocks := by
    intro addresses packet hor
    by_cases hfirst : blocked addresses packet
    · exact h.blocks addresses packet hfirst
    · rw [h.leaves addresses packet hfirst]
      exact h'.blocks addresses packet (hor.resolve_left hfirst)
  leaves := by
    intro addresses packet hnone
    rw [not_or] at hnone
    rw [h.leaves addresses packet hnone.1, h'.leaves addresses packet hnone.2]

theorem Before.congr {declared : List Text} {blocked blocked' : (Text → α → Bool) → Packet α → Prop}
    {rules others : filter.Ruleset} (h : filter.Before declared blocked rules others)
    (heq : ∀ addresses packet, blocked addresses packet ↔ blocked' addresses packet) :
    filter.Before declared blocked' rules others where
  tables := h.tables
  blocks := fun addresses packet hb => h.blocks addresses packet ((heq addresses packet).mpr hb)
  leaves := fun addresses packet hb =>
    h.leaves addresses packet (fun hb' => hb ((heq addresses packet).mp hb'))

theorem before_comment {remark rest : Text} {rules : filter.Ruleset} (hremark : is_remark remark = true)
    (h : filter.load (comment_line remark ++ rest) = some rules) :
    ∃ others, filter.load rest = some others ∧
      filter.Before [] (fun _ _ => False) rules others :=
  ⟨rules, filter.load_comment hremark h, .refl rules⟩

theorem before_table {table rest : Text} {rules : filter.Ruleset} (htable : is_word table = true)
    (h : filter.load (table_line table ++ rest) = some rules) :
    ∃ others, filter.load rest = some others ∧
      filter.Before [table] (fun _ _ => False) rules others := by
  obtain ⟨others, hload, htables, hdecides⟩ := filter.load_table htable h
  exact ⟨others, hload, htables, fun _ _ hfalse => hfalse.elim, fun addresses packet _ =>
    hdecides addresses packet⟩

theorem before_block {interface table label rest : Text} {family : Family} {rules : filter.Ruleset}
    (hinterface : filter.is_interface interface) (htable : is_word table = true)
    (hlabel : is_word label = true)
    (h : filter.load (block_line interface family table label ++ rest) = some rules) :
    ∃ others, filter.load rest = some others ∧
      filter.Before [] (fun addresses packet => Blocked addresses packet interface family table)
        rules others := by
  obtain ⟨others, hload, htables, hdecides⟩ := filter.load_block hinterface htable hlabel h
  refine ⟨others, hload, htables, fun addresses packet hblocked => ?_, fun addresses packet hblocked => ?_⟩
  · rw [hdecides, if_pos hblocked]
  · rw [hdecides, if_neg hblocked]

end Engine

/-! ## A filter

It loads lines as above, with `vtnet0` for the interface, and empty ones. It refuses every other text. -/

inductive SampleLine
  | table (name : Text)
  | block (family : Family) (name : Text)

def SampleLine.table? : SampleLine → Option Text
  | .table name => some name
  | .block _ _ => none

/-- The rule of the line matches. -/
def SampleLine.blocks {α : Type} (tables : Text → α → Bool) (packet : Packet α) : SampleLine → Bool
  | .table _ => false
  | .block family name => decide (Blocked tables packet "vtnet0".toList family name)

def sample_table (line : Text) : Option SampleLine :=
  let table := (line.drop 7).takeWhile is_word_char
  if line = "table <".toList ++ (table ++ "> persist".toList) then some (.table table) else none

def sample_block (family : Family) (line : Text) : Option SampleLine :=
  let start := block_start "vtnet0".toList family
  let table := (line.drop start.length).takeWhile is_word_char
  let label := (line.drop (start.length + table.length + 16)).takeWhile is_word_char
  if line = start ++ (table ++ block_end label) then some (.block family table) else none

def sample_line : Text → Option (List SampleLine)
  | [] => some []
  | '#' :: _ => some []
  | 't' :: line => (sample_table ('t' :: line)).map (fun parsed => [parsed])
  | line => ((sample_block .inet line).orElse (fun _ => sample_block .inet6 line)).map
      (fun parsed => [parsed])

def sample_load (text : Text) : Option (List SampleLine) :=
  ((text.splitOnP (fun c => c = '\n')).mapM sample_line).map List.flatten

/-- The first line, and the lines after it. -/
theorem sample_load_cons {line rest : Text} (h : '\n' ∉ line) :
    sample_load (line ++ '\n' :: rest) = (sample_line line).bind (fun first =>
      (sample_load rest).map (fun others => first ++ others)) := by
  have hline : ∀ c ∈ line, decide (c = '\n') = false := by
    intro c hc
    exact decide_eq_false (fun hnewline => h (hnewline ▸ hc))
  rw [sample_load, List.splitOnP_append_cons_of_forall_mem hline '\n' (by decide), List.mapM_cons]
  cases sample_line line with
  | none => rfl
  | some first =>
    rw [sample_load]
    cases (rest.splitOnP (fun c => c = '\n')).mapM sample_line <;> rfl

theorem takeWhile_word {word rest : Text} (h : is_word word = true) {c : Char}
    (hc : is_word_char c = false) : (word ++ c :: rest).takeWhile is_word_char = word := by
  rw [is_word, Bool.and_eq_true, List.all_eq_true] at h
  rw [List.takeWhile_append_of_pos h.2, List.takeWhile_cons_of_neg (by rw [hc]; decide),
    List.append_nil]

theorem not_newline_of_word {word : Text} (h : is_word word = true) : '\n' ∉ word := by
  rw [is_word, Bool.and_eq_true, List.all_eq_true] at h
  exact fun hmem => absurd (h.2 _ hmem) (by decide)

theorem sample_table_line {table : Text} (h : is_word table = true) :
    sample_line ("table <".toList ++ (table ++ "> persist".toList)) = some [.table table] := by
  have htable : ((table ++ "> persist".toList).takeWhile is_word_char) = table :=
    takeWhile_word h (by decide)
  show (sample_table ("table <".toList ++ (table ++ "> persist".toList))).map _ = _
  have hdrop : ("table <".toList ++ (table ++ "> persist".toList)).drop 7 =
      table ++ "> persist".toList := rfl
  unfold sample_table
  dsimp only
  rw [hdrop, htable, if_pos rfl]
  rfl

theorem sample_block_line (family : Family) {table label : Text} (htable : is_word table = true)
    (hlabel : is_word label = true) :
    sample_block family (block_start "vtnet0".toList family ++ (table ++ block_end label)) =
      some (.block family table) := by
  have hrest : (block_start "vtnet0".toList family ++ (table ++ block_end label)).drop
      (block_start "vtnet0".toList family).length = table ++ block_end label := List.drop_left
  have htake : (table ++ block_end label).takeWhile is_word_char = table :=
    takeWhile_word htable (by decide)
  have hlast : (block_start "vtnet0".toList family ++ (table ++ block_end label)).drop
      ((block_start "vtnet0".toList family).length + table.length + 16) = label ++ ['"'] := by
    rw [Nat.add_assoc, ← List.drop_drop, hrest, ← List.drop_drop, List.drop_left]
    rfl
  have hword : (label ++ ['"']).takeWhile is_word_char = label := takeWhile_word hlabel (by decide)
  unfold sample_block
  dsimp only
  rw [hrest, htake, hlast, hword, if_pos rfl]

/-- A rule for one family is none for the other. -/
theorem sample_block_inet {table label : Text} :
    sample_block .inet (block_start "vtnet0".toList .inet6 ++ (table ++ block_end label)) = none := by
  unfold sample_block
  refine if_neg (fun h => ?_)
  have hchar : some '6' = some ' ' := congrArg (fun line : Text => List.head? (line.drop 29)) h
  cases hchar

theorem sample_line_block (family : Family) {table label : Text} (htable : is_word table = true)
    (hlabel : is_word label = true) :
    sample_line (block_start "vtnet0".toList family ++ (table ++ block_end label)) =
      some [.block family table] := by
  have hline : sample_line (block_start "vtnet0".toList family ++ (table ++ block_end label)) =
      ((sample_block .inet (block_start "vtnet0".toList family ++ (table ++ block_end label))).orElse
        (fun _ => sample_block .inet6 (block_start "vtnet0".toList family ++
          (table ++ block_end label)))).map (fun parsed => [parsed]) := by
    cases family <;> rfl
  rw [hline]
  cases family with
  | inet =>
    rw [sample_block_line .inet htable hlabel]
    rfl
  | inet6 =>
    rw [sample_block_inet, sample_block_line .inet6 htable hlabel]
    rfl

def sample_filter (α : Type) : Engine α where
  Ruleset := List SampleLine
  load := sample_load
  tables := fun rules => rules.filterMap SampleLine.table?
  decides := fun rules addresses packet =>
    if rules.any (SampleLine.blocks addresses packet) then .block else .pass
  is_interface := fun interface => interface = "vtnet0".toList
  load_comment := by
    intro remark rest rules hremark h
    have hline : '\n' ∉ '#' :: remark := by
      rw [is_remark, List.all_eq_true] at hremark
      intro hmem
      rcases List.mem_cons.mp hmem with hmem | hmem
      · cases hmem
      · exact absurd (hremark _ hmem) (by decide)
    have htext : comment_line remark ++ rest = ('#' :: remark) ++ '\n' :: rest := by
      rw [comment_line, List.cons_append, List.append_assoc]
      rfl
    rw [htext, sample_load_cons hline] at h
    obtain ⟨first, hfirst, hrest⟩ := Option.bind_eq_some_iff.mp h
    cases hfirst
    obtain ⟨others, hothers, rfl⟩ := Option.map_eq_some_iff.mp hrest
    exact hothers
  load_table := by
    intro table rest rules htable h
    have hstart : '\n' ∉ "table <".toList := by decide
    have hend : '\n' ∉ "> persist".toList := by decide
    have hline : '\n' ∉ "table <".toList ++ (table ++ "> persist".toList) := by
      intro hmem
      rcases List.mem_append.mp hmem with hmem | hmem
      · exact hstart hmem
      · exact (List.mem_append.mp hmem).elim (not_newline_of_word htable) hend
    have htext : table_line table ++ rest =
        ("table <".toList ++ (table ++ "> persist".toList)) ++ '\n' :: rest := by
      unfold table_line
      simp only [List.append_assoc, List.cons_append, List.nil_append]
    rw [htext, sample_load_cons hline, sample_table_line htable, Option.bind_some] at h
    obtain ⟨others, hothers, rfl⟩ := Option.map_eq_some_iff.mp h
    exact ⟨others, hothers, rfl, fun addresses packet => rfl⟩
  load_block := by
    intro interface table label rest family rules hinterface htable hlabel h
    subst hinterface
    have hstart : '\n' ∉ block_start "vtnet0".toList family := by cases family <;> decide
    have hend : '\n' ∉ "> to any label \"".toList := by decide
    have hline : '\n' ∉ block_start "vtnet0".toList family ++ (table ++ block_end label) := by
      intro hmem
      rcases List.mem_append.mp hmem with hmem | hmem
      · exact hstart hmem
      rcases List.mem_append.mp hmem with hmem | hmem
      · exact not_newline_of_word htable hmem
      rcases List.mem_append.mp hmem with hmem | hmem
      · exact hend hmem
      rcases List.mem_append.mp hmem with hmem | hmem
      · exact not_newline_of_word hlabel hmem
      · cases List.mem_singleton.mp hmem
    have htext : block_line "vtnet0".toList family table label ++ rest =
        (block_start "vtnet0".toList family ++ (table ++ block_end label)) ++ '\n' :: rest := by
      rw [block_line]
      simp only [List.append_assoc, List.cons_append, List.nil_append]
    rw [htext, sample_load_cons hline, sample_line_block family htable hlabel, Option.bind_some] at h
    obtain ⟨others, hothers, rfl⟩ := Option.map_eq_some_iff.mp h
    refine ⟨others, hothers, rfl, fun addresses packet => ?_⟩
    rw [List.singleton_append, List.any_cons, SampleLine.blocks]
    by_cases hblocked : Blocked addresses packet "vtnet0".toList family table
    · rw [if_pos hblocked, decide_eq_true hblocked, Bool.true_or, if_pos rfl]
    · rw [if_neg hblocked, decide_eq_false hblocked, Bool.false_or]

end F2bguard.PacketFilter
