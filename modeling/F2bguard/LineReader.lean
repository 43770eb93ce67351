/-
Reading one line from a connection.

The reader asks for bytes until it has a newline, the other side has closed, or it has more than
`limit` of them; what it gets at a time is up to the connection. Where nothing follows the first
newline within the limit, the line it takes depends on the whole stream only and not on how it
arrived (`read_line_eq_check`). Where something does, the reader may stop right behind the newline
and never see it, or it may get more in one piece (`read_line_bytewise`, `read_line_beyond`).
-/
import Mathlib.Data.List.Basic
import Mathlib.Data.List.TakeWhile

set_option autoImplicit false

namespace F2bguard.LineReader

variable {α : Type}

/-! ## The reader

A connection hands out its stream in pieces. How large a piece is, is decided by the argument
`ready`, which is asked at every call and can be anything. -/

/-- A connection while a line is read: what has come, what is still to come, and what was asked
for. -/
structure Connection (α : Type) where
  response : List α := []
  /-- what the other side still sends before it closes -/
  stream : List α
  /-- the sizes that were asked for -/
  sizes : List ℕ := []

/-- `recv(size)` when `ready + 1` bytes are there: never nothing, unless the stream has ended or
nothing is asked for. -/
def recv (size ready : ℕ) (stream : List α) : List α × List α := stream.splitAt (min size (ready + 1))

theorem recv_append (size ready : ℕ) (stream : List α) :
    (recv size ready stream).1 ++ (recv size ready stream).2 = stream := by
  rw [recv, List.splitAt_eq]
  exact List.take_append_drop _ _

theorem recv_eq_nil {size ready : ℕ} (hsize : 0 < size) {stream : List α}
    (h : (recv size ready stream).1 = []) : stream = [] := by
  rw [recv, List.splitAt_eq, List.take_eq_nil_iff] at h
  rcases h with h | h
  · omega
  · exact h

/-- A piece that is not empty and not longer than asked for can arrive. -/
theorem recv_piece {size : ℕ} {piece : List α} (hpiece : piece ≠ []) (hsize : piece.length ≤ size)
    (rest : List α) : recv size (piece.length - 1) (piece ++ rest) = (piece, rest) := by
  have hpos : 0 < piece.length := List.length_pos_iff.mpr hpiece
  have hlen : min size (piece.length - 1 + 1) = piece.length := by omega
  rw [recv, List.splitAt_eq, hlen, List.take_left, List.drop_left]

/-- How the loop ends. -/
inductive Ended (α : Type)
  | stopped (connection : Connection α)
  | too_long (connection : Connection α)

def Ended.connection : Ended α → Connection α
  | .stopped connection => connection
  | .too_long connection => connection

/-- The bounds of a reader, and the byte that ends a line. -/
structure Reader (α : Type) where
  newline : α
  /-- the most that is asked for at a time -/
  chunk : ℕ
  limit : ℕ

/-- A stream that is one line within the limit. -/
def Reader.IsLine (r : Reader α) (stream line : List α) : Prop :=
  stream = line ++ [r.newline] ∧ r.newline ∉ line ∧ stream.length ≤ r.limit

/-- Something follows the first newline, which is within the limit. -/
def Reader.Trails (r : Reader α) (stream : List α) : Prop :=
  ∃ line rest, stream = line ++ r.newline :: rest ∧ r.newline ∉ line ∧ line.length < r.limit ∧ rest ≠ []

/-- Nothing follows the newline of a line. -/
theorem Reader.not_trails_line (r : Reader α) {line : List α} (h : r.newline ∉ line) :
    ¬ r.Trails (line ++ [r.newline]) := by
  rintro ⟨line', rest, hsame, -, -, hrest⟩
  exact hrest ((List.append_cons_inj_of_notMem h List.not_mem_nil).mp hsame).2.2.symm

theorem Reader.not_trails_of_not_mem (r : Reader α) {stream : List α} (h : r.newline ∉ stream) :
    ¬ r.Trails stream := by
  rintro ⟨line, rest, rfl, -⟩
  exact h (List.mem_append_right _ List.mem_cons_self)

variable [DecidableEq α]

/-- The loop. Every call of `recv` finds another number of bytes read, so that `ready`, which says
how many are there then, can split the stream in every way. It ends with a newline, with the end
of the stream, or with more than the limit; the last size asked for leaves room for one byte above
it. -/
def Reader.read_loop (r : Reader α) (ready : ℕ → ℕ) : ℕ → Connection α → Option (Ended α)
  | 0, _ => none
  | fuel + 1, c =>
      if r.newline ∈ c.response then some (.stopped c)
      else
        let size := min r.chunk (r.limit + 1 - c.response.length)
        let (received, stream) := recv size (ready c.response.length) c.stream
        let c' : Connection α := ⟨c.response ++ received, stream, c.sizes ++ [size]⟩
        if received = [] then some (.stopped c')
        else if r.limit < c'.response.length then some (.too_long c')
        else r.read_loop ready fuel c'

/-- Why there is no line. -/
inductive Fault
  | too_long
  | framing
  deriving DecidableEq

/-- What is checked when the loop is over. -/
def Reader.line_of (r : Reader α) : Ended α → Except Fault (List α)
  | .too_long _ => .error .too_long
  | .stopped c =>
      if c.response.getLast? ≠ some r.newline ∨ c.response.count r.newline ≠ 1 then .error .framing
      else .ok c.response.dropLast

/-- The line that is read from a stream. -/
def Reader.read_line (r : Reader α) (ready : ℕ → ℕ) (stream : List α) :
    Option (Except Fault (List α)) :=
  (r.read_loop ready (stream.length + 1) { stream := stream }).map r.line_of

/-- The same checks for a stream that is there as a whole. -/
def Reader.check (r : Reader α) (stream : List α) : Except Fault (List α) :=
  if r.limit < stream.length then .error .too_long
  else r.line_of (.stopped { response := stream, stream := [] })

/-! ## The loop

What the loop can end with, for any pieces. The fuel is the length of the stream, of which each
turn takes at least one byte. -/

namespace Reader

variable (r : Reader α)

/-- How the loop can end on what there is: with all of it, at the first newline, or because there
is more than the limit. -/
inductive Ends (all : List α) : Ended α → Prop
  | closed (sizes : List ℕ) (hnone : r.newline ∉ all) (hlen : all.length ≤ r.limit) :
      Ends all (.stopped ⟨all, [], sizes⟩)
  | line (line extra rest : List α) (sizes : List ℕ)
      (hall : all = line ++ r.newline :: (extra ++ rest)) (hline : r.newline ∉ line)
      (hlen : (line ++ r.newline :: extra).length ≤ r.limit) :
      Ends all (.stopped ⟨line ++ r.newline :: extra, rest, sizes⟩)
  | too_long (c : Connection α) (hlen : r.limit < all.length) : Ends all (.too_long c)

/-- The loop ends, and never asks for nothing. The induction is on the fuel, of which a round takes
one and the stream at least one byte. -/
theorem read_loop_ends (hchunk : 0 < r.chunk) (ready : ℕ → ℕ) (fuel : ℕ) : ∀ c : Connection α,
    r.newline ∉ c.response → c.response.length ≤ r.limit → c.stream.length < fuel →
      (∀ size ∈ c.sizes, 0 < size) →
      ∃ ended, r.read_loop ready fuel c = some ended ∧ r.Ends (c.response ++ c.stream) ended ∧
        ∀ size ∈ ended.connection.sizes, 0 < size := by
  induction fuel with
  | zero => exact fun c _ _ hfuel _ => absurd hfuel (Nat.not_lt_zero _)
  | succ fuel ih =>
    intro c hnone hlen hfuel hsizes
    have hsize : 0 < min r.chunk (r.limit + 1 - c.response.length) := by omega
    rw [read_loop, if_neg hnone]
    dsimp only
    generalize min r.chunk (r.limit + 1 - c.response.length) = size at hsize ⊢
    have happend := recv_append size (ready c.response.length) c.stream
    have hnil := @recv_eq_nil α size (ready c.response.length) hsize c.stream
    generalize recv size (ready c.response.length) c.stream = got at happend hnil ⊢
    obtain ⟨received, stream⟩ := got
    dsimp only at happend hnil ⊢
    have hsizes' : ∀ s ∈ c.sizes ++ [size], 0 < s := by
      intro s hs
      rcases List.mem_append.mp hs with hs | hs
      · exact hsizes s hs
      · rw [List.mem_singleton.mp hs]
        exact hsize
    -- nothing of the stream is lost in a round
    have hall : c.response ++ c.stream = (c.response ++ received) ++ stream := by
      rw [← happend, List.append_assoc]
    split
    · rename_i hreceived
      -- the other side has closed: the stream was empty
      have hstream := hnil hreceived
      rw [hstream] at happend
      obtain ⟨rfl, rfl⟩ := List.append_eq_nil_iff.mp happend
      refine ⟨_, rfl, ?_, hsizes'⟩
      rw [hstream, List.append_nil]
      exact .closed _ hnone hlen
    · rename_i hreceived
      split
      · rename_i hlong
        refine ⟨_, rfl, .too_long _ ?_, hsizes'⟩
        rw [hall, List.length_append]
        omega
      · rename_i hshort
        rw [not_lt] at hshort
        have hfuel' : stream.length < fuel := by
          have hpos : 0 < received.length := List.length_pos_iff.mpr hreceived
          have htotal := congrArg List.length happend
          rw [List.length_append] at htotal
          omega
        by_cases hnewline : r.newline ∈ c.response ++ received
        · -- the next round finds the newline
          obtain ⟨fuel, rfl⟩ : ∃ n, fuel = n + 1 := ⟨fuel - 1, by omega⟩
          rw [read_loop, if_pos hnewline]
          obtain ⟨line, extra, hresponse, hline⟩ := List.eq_append_cons_of_mem hnewline
          refine ⟨_, rfl, ?_, hsizes'⟩
          rw [hall, hresponse]
          rw [hresponse] at hshort
          exact .line line extra stream _ (by rw [List.append_assoc, List.cons_append]) hline hshort
        · rw [hall]
          exact ih ⟨c.response ++ received, stream, c.sizes ++ [size]⟩ hnewline hshort hfuel' hsizes'

/-! ## Streams on which only the bytes matter

Without anything behind the newline the loop has either read the whole stream or found it too
long, and the checks say the same of both. -/

theorem line_of_line {line rest : List α} {sizes : List ℕ} (hline : r.newline ∉ line) :
    r.line_of (.stopped ⟨line ++ [r.newline], rest, sizes⟩) = .ok line := by
  have hcount : (line ++ [r.newline]).count r.newline = 1 := by
    rw [List.count_append, List.count_eq_zero_of_not_mem hline, List.count_singleton_self]
  have hlast : (line ++ [r.newline]).getLast? = some r.newline := List.getLast?_concat
  unfold line_of
  dsimp only
  rw [hlast, hcount, if_neg (by simp), List.dropLast_concat]

/-- The checks take a line and nothing else. -/
theorem check_eq_ok_iff {stream line : List α} : r.check stream = .ok line ↔ r.IsLine stream line := by
  constructor
  · intro h
    unfold check at h
    split at h
    · cases h
    · rename_i hlen
      unfold line_of at h
      dsimp only at h
      split at h
      · cases h
      · rename_i hframing
        rw [not_or, not_not, not_not] at hframing
        obtain ⟨hlast, hcount⟩ := hframing
        cases h
        obtain ⟨line, rfl⟩ := List.getLast?_eq_some_iff.mp hlast
        rw [List.count_append, List.count_singleton_self] at hcount
        rw [List.dropLast_concat]
        exact ⟨rfl, List.count_eq_zero.mp (by omega), not_lt.mp hlen⟩
  · rintro ⟨rfl, hline, hlen⟩
    rw [check, if_neg (not_lt.mpr hlen), r.line_of_line hline]

/-- Nothing behind the newline: however the stream arrives, it is checked as a whole. -/
theorem read_line_eq_check (hchunk : 0 < r.chunk) {stream : List α} (h : ¬ r.Trails stream)
    (ready : ℕ → ℕ) : r.read_line ready stream = some (r.check stream) := by
  obtain ⟨ended, hended, hends, -⟩ := r.read_loop_ends hchunk ready (stream.length + 1)
    { stream := stream } (List.not_mem_nil) (Nat.zero_le _) (Nat.lt_succ_self _)
    (fun _ hs => absurd hs List.not_mem_nil)
  rw [read_line, hended, Option.map_some]
  rw [List.nil_append] at hends
  congr 1
  cases hends with
  | closed sizes hnone hlen =>
    rw [check, if_neg (not_lt.mpr hlen)]
    rfl
  | line line extra rest sizes hall hline hlen =>
    have hnothing : extra ++ rest = [] := by
      by_contra hne
      rw [List.length_append, List.length_cons] at hlen
      exact h ⟨line, extra ++ rest, hall, hline, by omega, hne⟩
    obtain ⟨rfl, rfl⟩ := List.append_eq_nil_iff.mp hnothing
    subst hall
    rw [r.line_of_line hline]
    exact (r.check_eq_ok_iff.mpr ⟨rfl, hline, hlen⟩).symm
  | too_long c hlen =>
    rw [check, if_pos hlen]
    rfl

/-! ## Streams on which the pieces matter

Two ways for the same stream to arrive: byte by byte, and with one byte more behind the newline.
-/

/-- The bytes up to the newline, one by one. -/
theorem read_loop_bytewise (hchunk : 0 < r.chunk) {ready : ℕ → ℕ} {rest : List α} (fuel : ℕ)
    {line : List α} : ∀ {response : List α} {sizes : List ℕ}, r.newline ∉ response ++ line →
      (response ++ line).length ≤ r.limit → (∀ n < (response ++ line).length, ready n = 0) →
      ∃ sizes', r.read_loop ready (line.length + fuel) ⟨response, line ++ rest, sizes⟩ =
        r.read_loop ready fuel ⟨response ++ line, rest, sizes'⟩ := by
  induction line with
  | nil =>
    intro response sizes _ _ _
    refine ⟨sizes, ?_⟩
    rw [List.length_nil, Nat.zero_add, List.append_nil, List.nil_append]
  | cons b line ih =>
    intro response sizes hnone hlen hready
    have hresponse : r.newline ∉ response := fun h => hnone (List.mem_append_left _ h)
    have hlen' : response.length + (line.length + 1) ≤ r.limit := by
      rwa [List.length_append, List.length_cons] at hlen
    have hready' : ready response.length = 0 := by
      refine hready _ ?_
      rw [List.length_append, List.length_cons]
      omega
    have hassoc : response ++ b :: line = (response ++ [b]) ++ line := List.append_cons _ _ _
    have hpiece : recv (min r.chunk (r.limit + 1 - response.length)) 0 (b :: (line ++ rest)) =
        ([b], line ++ rest) := by
      refine recv_piece (List.cons_ne_nil b []) ?_ (line ++ rest)
      rw [List.length_singleton]
      omega
    rw [hassoc] at hnone hlen hready
    obtain ⟨sizes', hloop⟩ := @ih (response ++ [b])
      (sizes ++ [min r.chunk (r.limit + 1 - response.length)]) hnone hlen hready
    refine ⟨sizes', ?_⟩
    rw [List.length_cons, Nat.add_right_comm, read_loop, if_neg hresponse]
    dsimp only
    rw [hready', List.cons_append, hpiece]
    dsimp only
    rw [if_neg (List.cons_ne_nil b []), if_neg (by rw [List.length_append, List.length_singleton]; omega),
      hassoc]
    exact hloop

/-- What is read when the newline arrives with `extra` behind it. -/
theorem read_line_piece (hchunk : 1 < r.chunk) {line extra : List α} (rest : List α)
    (hline : r.newline ∉ line) (hlen : line.length < r.limit) (hextra : extra.length ≤ 1) :
    ∃ ready, r.read_line ready (line ++ r.newline :: (extra ++ rest)) =
      some (if r.limit < (line ++ r.newline :: extra).length then .error .too_long
        else r.line_of (.stopped { response := line ++ r.newline :: extra, stream := rest })) := by
  refine ⟨fun n => if n = line.length then extra.length else 0, ?_⟩
  obtain ⟨sizes, hloop⟩ := @read_loop_bytewise α _ r (by omega)
    (fun n => if n = line.length then extra.length else 0) (r.newline :: (extra ++ rest))
    (extra.length + rest.length + 1 + 1) line [] [] hline (le_of_lt hlen)
    (fun n hn => if_neg (ne_of_lt hn))
  have hfuel : (line ++ r.newline :: (extra ++ rest)).length + 1 =
      line.length + (extra.length + rest.length + 1 + 1) := by
    rw [List.length_append, List.length_cons, List.length_append]
    omega
  have hpiece : recv (min r.chunk (r.limit + 1 - line.length)) extra.length
      (r.newline :: (extra ++ rest)) = (r.newline :: extra, rest) := by
    refine recv_piece (List.cons_ne_nil r.newline extra) ?_ rest
    rw [List.length_cons]
    omega
  rw [read_line, hfuel, hloop, List.nil_append, read_loop, if_neg hline]
  dsimp only
  rw [if_pos rfl, hpiece]
  dsimp only
  rw [if_neg (List.cons_ne_nil r.newline extra)]
  split
  · rfl
  · rw [read_loop, if_pos (List.mem_append_right _ List.mem_cons_self)]
    rfl

/-- The reader can stop right behind the newline. -/
theorem read_line_bytewise (hchunk : 1 < r.chunk) {line : List α} (rest : List α)
    (hline : r.newline ∉ line) (hlen : line.length < r.limit) :
    ∃ ready, r.read_line ready (line ++ r.newline :: rest) = some (.ok line) := by
  have hnothing : ([] : List α).length ≤ 1 := Nat.zero_le 1
  obtain ⟨ready, h⟩ := r.read_line_piece hchunk rest hline hlen hnothing
  refine ⟨ready, ?_⟩
  rw [List.nil_append] at h
  rw [h, if_neg (by rw [List.length_append, List.length_singleton]; omega), r.line_of_line hline]

/-- The reader can get a byte of what follows, and then there is no line. -/
theorem read_line_beyond (hchunk : 1 < r.chunk) {line : List α} (x : α) (rest : List α)
    (hline : r.newline ∉ line) (hlen : line.length < r.limit) :
    ∃ ready fault, r.read_line ready (line ++ r.newline :: x :: rest) = some (.error fault) := by
  obtain ⟨ready, h⟩ := r.read_line_piece hchunk rest hline hlen (le_refl [x].length)
  refine ⟨ready, ?_⟩
  rw [List.singleton_append] at h
  rw [h]
  split
  · exact ⟨_, rfl⟩
  · refine ⟨.framing, ?_⟩
    -- the last byte is not a newline, or it is the second one
    have hframing : (line ++ [r.newline, x]).getLast? ≠ some r.newline ∨
        (line ++ [r.newline, x]).count r.newline ≠ 1 := by
      by_cases hx : x = r.newline
      · right
        rw [hx, List.count_append, List.count_cons_self, List.count_cons_self]
        omega
      · left
        rw [List.append_cons, List.getLast?_concat]
        exact fun h => hx (Option.some.inj h)
    unfold line_of
    dsimp only
    rw [if_pos hframing]

/-- A stream on which something follows the first newline is read as a line or as a fault, as it
arrives. -/
theorem pieces_matter (hchunk : 1 < r.chunk) {stream : List α} (h : r.Trails stream) :
    ∃ ready ready' line fault, r.read_line ready stream = some (.ok line) ∧
      r.read_line ready' stream = some (.error fault) := by
  obtain ⟨line, rest, rfl, hline, hlen, hrest⟩ := h
  obtain ⟨x, rest, rfl⟩ := List.exists_cons_of_ne_nil hrest
  obtain ⟨ready, hok⟩ := r.read_line_bytewise hchunk (x :: rest) hline hlen
  obtain ⟨ready', fault, herror⟩ := r.read_line_beyond hchunk x rest hline hlen
  exact ⟨ready, ready', line, fault, hok, herror⟩

end Reader

end F2bguard.LineReader
