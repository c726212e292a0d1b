import Mathlib.Data.List.Basic

namespace Climon.Lib.Framing

/-!
# Incremental decoders over self-delimiting units

A stream grammar looks at the front of the bytes received so far and either asks
for more, rejects them, or finds one complete unit.  A decoder built on it keeps
the undecoded bytes between reads; the theorems below say that the cuts between
reads do not matter.
-/

/-- What the front of a stream holds. A complete unit may carry no message. -/
inductive Scan (α ε : Type) where
  | short
  | bad (error : ε)
  | unit (width : Nat) (message : Option α)
  deriving DecidableEq, Repr

/-- The laws are prefix stability: a unit is found from its own bytes, and bytes
arriving later change neither a complete unit nor a rejection. -/
structure Grammar (β α ε : Type) where
  scan : List β → Scan α ε
  unit_pos : ∀ {xs n m}, scan xs = .unit n m → 0 < n
  unit_le : ∀ {xs n m}, scan xs = .unit n m → n ≤ xs.length
  unit_take : ∀ {xs n m}, scan xs = .unit n m → scan (xs.take n) = .unit n m
  unit_append : ∀ {xs n m} ys, scan xs = .unit n m → scan (xs ++ ys) = .unit n m
  bad_append : ∀ {xs e} ys, scan xs = .bad e → scan (xs ++ ys) = .bad e

/-- How a parse ends: waiting for more bytes after the ones left over, or at a
rejected unit. -/
inductive Ending (β ε : Type) where
  | waiting (rest : List β)
  | failed (error : ε)
  deriving DecidableEq, Repr

def Ending.isFailed {β ε : Type} : Ending β ε → Bool
  | .waiting _ => false
  | .failed _ => true

structure Parse (β α ε : Type) where
  messages : List α
  ending : Ending β ε
  deriving DecidableEq, Repr

variable {β α ε : Type}

/-- Put the messages found before a cut in front of the parse after it. -/
def Parse.after (messages : List α) (p : Parse β α ε) : Parse β α ε :=
  ⟨messages ++ p.messages, p.ending⟩

@[simp] theorem Parse.messages_after (messages : List α) (p : Parse β α ε) :
    (p.after messages).messages = messages ++ p.messages := rfl

@[simp] theorem Parse.ending_after (messages : List α) (p : Parse β α ε) :
    (p.after messages).ending = p.ending := rfl

theorem Parse.after_after (ms ns : List α) (p : Parse β α ε) :
    (p.after ns).after ms = p.after (ms ++ ns) := by
  simp [Parse.after]

namespace Grammar

variable (g : Grammar β α ε)

/-- The messages of a whole stream, in order, up to the first rejected unit. -/
def parse (xs : List β) : Parse β α ε :=
  match _h : g.scan xs with
  | .short => ⟨[], .waiting xs⟩
  | .bad e => ⟨[], .failed e⟩
  | .unit n m => (parse (xs.drop n)).after m.toList
termination_by xs.length
decreasing_by
  have := g.unit_pos _h
  have := g.unit_le _h
  simp only [List.length_drop]
  omega

theorem parse_short {xs : List β} (h : g.scan xs = .short) :
    g.parse xs = ⟨[], .waiting xs⟩ := by
  rw [parse]
  split <;> simp_all

theorem parse_bad {xs : List β} {e : ε} (h : g.scan xs = .bad e) :
    g.parse xs = ⟨[], .failed e⟩ := by
  rw [parse]
  split <;> simp_all

theorem parse_unit {xs : List β} {n : Nat} {m : Option α} (h : g.scan xs = .unit n m) :
    g.parse xs = (g.parse (xs.drop n)).after m.toList := by
  conv_lhs => rw [parse]
  split <;> simp_all

/-- A unit in front of a stream contributes its own message and nothing else. -/
theorem parse_unit_append {unit : List β} {m : Option α}
    (h : g.scan unit = .unit unit.length m) (ys : List β) :
    g.parse (unit ++ ys) = (g.parse ys).after m.toList := by
  rw [g.parse_unit (g.unit_append ys h), List.drop_left]

/-- Bytes after a cut are parsed as if they followed the bytes left over there. -/
theorem parse_append_waiting {xs rest : List β} (ys : List β)
    (h : (g.parse xs).ending = .waiting rest) :
    g.parse (xs ++ ys) = (g.parse (rest ++ ys)).after (g.parse xs).messages := by
  induction xs using Grammar.parse.induct g with
  | case1 xs hs =>
    rw [g.parse_short hs] at h ⊢
    cases h
    rfl
  | case2 xs e hs =>
    rw [g.parse_bad hs] at h
    cases h
  | case3 xs n m hs ih =>
    rw [g.parse_unit hs] at h ⊢
    rw [g.parse_unit (g.unit_append ys hs), List.drop_append_of_le_length (g.unit_le hs), ih h]
    exact Parse.after_after _ _ _

/-- Nothing after a rejected unit is looked at. -/
theorem parse_append_failed {xs : List β} {e : ε} (ys : List β)
    (h : (g.parse xs).ending = .failed e) : g.parse (xs ++ ys) = g.parse xs := by
  induction xs using Grammar.parse.induct g with
  | case1 xs hs =>
    rw [g.parse_short hs] at h
    cases h
  | case2 xs e' hs => rw [g.parse_bad hs, g.parse_bad (g.bad_append ys hs)]
  | case3 xs n m hs ih =>
    rw [g.parse_unit hs] at h ⊢
    rw [g.parse_unit (g.unit_append ys hs), List.drop_append_of_le_length (g.unit_le hs), ih h]

/-- The bytes left over do not hold a complete unit. -/
theorem scan_rest {xs rest : List β} (h : (g.parse xs).ending = .waiting rest) :
    g.scan rest = .short := by
  induction xs using Grammar.parse.induct g with
  | case1 xs hs =>
    rw [g.parse_short hs] at h
    cases h
    exact hs
  | case2 xs e hs =>
    rw [g.parse_bad hs] at h
    cases h
  | case3 xs n m hs ih =>
    rw [g.parse_unit hs] at h
    exact ih h

/-- One complete unit and nothing after it. -/
def Complete (unit : List β) : Prop := ∃ m, g.scan unit = .unit unit.length m

/-- Complete units in front do not hide a rejection, and nothing else comes before one. -/
theorem failed_iff (xs : List β) (e : ε) :
    (g.parse xs).ending = .failed e ↔
      ∃ (units : List (List β)) (tail : List β),
        xs = units.flatten ++ tail ∧ (∀ u ∈ units, g.Complete u) ∧
        g.scan tail = .bad e := by
  constructor
  · intro h
    induction xs using Grammar.parse.induct g with
    | case1 xs hs =>
      rw [g.parse_short hs] at h
      cases h
    | case2 xs e' hs =>
      rw [g.parse_bad hs] at h
      cases h
      exact ⟨[], xs, rfl, by simp, hs⟩
    | case3 xs n m hs ih =>
      rw [g.parse_unit hs] at h
      obtain ⟨units, tail, hx, hu, ht⟩ := ih h
      refine ⟨xs.take n :: units, tail, ?_, ?_, ht⟩
      · rw [List.flatten_cons, List.append_assoc, ← hx, List.take_append_drop]
      · rintro u (_ | ⟨_, hmem⟩)
        · refine ⟨m, ?_⟩
          rw [List.length_take, Nat.min_eq_left (g.unit_le hs)]
          exact g.unit_take hs
        · exact hu u hmem
  · rintro ⟨units, tail, rfl, hu, ht⟩
    induction units with
    | nil =>
      rw [List.flatten_nil, List.nil_append, g.parse_bad ht]
    | cons u units ih =>
      obtain ⟨m, hm⟩ := hu u List.mem_cons_self
      rw [List.flatten_cons, List.append_assoc, g.parse_unit_append hm]
      exact ih fun v hv => hu v (List.mem_cons_of_mem _ hv)

end Grammar

/-! ## Units whose header tells their length -/

section Prefixed

variable {header n : Nat} {m : Option α} {xs : List β} {length : List β → Nat}
  {message : List β → α}

def prefixedScan (header : Nat) (length : List β → Nat) (message : List β → α) (xs : List β) :
    Scan α Empty :=
  if xs.length < header + length (xs.take header) then .short
  else
    .unit (header + length (xs.take header))
      (some (message (xs.take (header + length (xs.take header)))))

theorem prefixedScan_unit_iff : prefixedScan header length message xs = .unit n m ↔
    n = header + length (xs.take header) ∧ n ≤ xs.length ∧ m = some (message (xs.take n)) := by
  unfold prefixedScan
  split
  · next hshort =>
    refine iff_of_false nofun ?_
    rintro ⟨rfl, hle, -⟩
    omega
  · next hlong =>
    rw [Scan.unit.injEq]
    constructor
    · rintro ⟨rfl, rfl⟩
      exact ⟨rfl, Nat.le_of_not_lt hlong, rfl⟩
    · rintro ⟨rfl, -, rfl⟩
      exact ⟨rfl, rfl⟩

/-- Nothing is rejected: a header of fixed size tells how many bytes of its unit follow. -/
def Grammar.prefixed (header : Nat) (hpos : 0 < header) (length : List β → Nat)
    (message : List β → α) : Grammar β α Empty where
  scan := prefixedScan header length message
  unit_pos := by
    intro xs n m h
    have hwidth := (prefixedScan_unit_iff.mp h).1
    omega
  unit_le := by
    intro xs n m h
    exact (prefixedScan_unit_iff.mp h).2.1
  unit_take := by
    intro xs n m h
    obtain ⟨hwidth, hle, hm⟩ := prefixedScan_unit_iff.mp h
    refine prefixedScan_unit_iff.mpr ⟨?_, ?_, ?_⟩
    · rw [List.take_take, Nat.min_eq_left (by omega)]
      exact hwidth
    · rw [List.length_take]
      exact Nat.le_min.mpr ⟨Nat.le_refl n, hle⟩
    · rw [List.take_take, Nat.min_self]
      exact hm
  unit_append := by
    intro xs n m ys h
    obtain ⟨hwidth, hle, hm⟩ := prefixedScan_unit_iff.mp h
    refine prefixedScan_unit_iff.mpr ⟨?_, ?_, ?_⟩
    · rw [List.take_append_of_le_length (by omega)]
      exact hwidth
    · rw [List.length_append]
      omega
    · rw [List.take_append_of_le_length hle]
      exact hm
  bad_append := by
    intro xs e
    exact e.elim

theorem Grammar.prefixed_unit_iff {hpos : 0 < header} :
    (Grammar.prefixed header hpos length message).scan xs = .unit n m ↔
      n = header + length (xs.take header) ∧ n ≤ xs.length ∧ m = some (message (xs.take n)) :=
  prefixedScan_unit_iff

/-- Without rejections every parse ends waiting. -/
theorem parse_waiting (g : Grammar β α Empty) (xs : List β) :
    ∃ rest, (g.parse xs).ending = .waiting rest := by
  cases h : (g.parse xs).ending with
  | waiting rest => exact ⟨rest, rfl⟩
  | failed e => exact e.elim

end Prefixed

/-! ## Decoders fed chunk by chunk -/

/-- What a run of reads delivered, the error that ended it, and the bytes kept. -/
structure Feed (β α ε : Type) where
  delivered : List α
  error : Option ε
  buffer : List β
  deriving DecidableEq, Repr

/-- A decoder's read: the kept bytes and a chunk to a result and the bytes to keep.
`none` is a crash. -/
abbrev Push (β α ε : Type) := List β → List β → Option (Except ε (List α) × List β)

/-- Feed chunks until one of them is rejected. -/
def feed (push : Push β α ε) : List β → List (List β) → Option (Feed β α ε)
  | buffer, [] => some ⟨[], none, buffer⟩
  | buffer, chunk :: chunks =>
    match push buffer chunk with
    | none => none
    | some (.error e, buffer') => some ⟨[], some e, buffer'⟩
    | some (.ok messages, buffer') =>
      (feed push buffer' chunks).map fun later =>
        ⟨messages ++ later.delivered, later.error, later.buffer⟩

/-- `push` reads its grammar's units off the kept bytes and the new chunk, and keeps
the bytes of the unit that is still incomplete. -/
def Implements (g : Grammar β α ε) (push : Push β α ε) : Prop :=
  ∀ buffer chunk,
    match (g.parse (buffer ++ chunk)).ending with
    | .waiting rest =>
      push buffer chunk = some (.ok (g.parse (buffer ++ chunk)).messages, rest)
    | .failed e => ∃ kept, push buffer chunk = some (.error e, kept)

section Feeding

variable {g : Grammar β α ε} {push : Push β α ε}

theorem Implements.waiting (h : Implements g push) {buffer chunk rest : List β}
    (hw : (g.parse (buffer ++ chunk)).ending = .waiting rest) :
    push buffer chunk = some (.ok (g.parse (buffer ++ chunk)).messages, rest) := by
  have := h buffer chunk
  rw [hw] at this
  exact this

theorem Implements.failed (h : Implements g push) {buffer chunk : List β} {e : ε}
    (hf : (g.parse (buffer ++ chunk)).ending = .failed e) :
    ∃ kept, push buffer chunk = some (.error e, kept) := by
  have := h buffer chunk
  rw [hf] at this
  exact this

/-- Without a malformed unit the cuts between chunks are invisible. -/
theorem feed_waiting (h : Implements g push) {buffer rest : List β} {chunks : List (List β)}
    (hb : g.scan buffer = .short)
    (hw : (g.parse (buffer ++ chunks.flatten)).ending = .waiting rest) :
    feed push buffer chunks =
      some ⟨(g.parse (buffer ++ chunks.flatten)).messages, none, rest⟩ := by
  induction chunks generalizing buffer with
  | nil =>
    simp only [List.flatten_nil, List.append_nil] at hw ⊢
    rw [g.parse_short hb] at hw ⊢
    cases hw
    rfl
  | cons chunk chunks ih =>
    simp only [List.flatten_cons, ← List.append_assoc] at hw ⊢
    cases hc : (g.parse (buffer ++ chunk)).ending with
    | failed e =>
      rw [g.parse_append_failed _ hc, hc] at hw
      cases hw
    | waiting kept =>
      rw [g.parse_append_waiting _ hc] at hw ⊢
      simp only [feed, h.waiting hc]
      rw [ih (g.scan_rest hc) hw]
      rfl

/-- A malformed unit is reported, and only messages in front of it were delivered. -/
theorem feed_failed (h : Implements g push) {buffer : List β} {chunks : List (List β)} {e : ε}
    (hb : g.scan buffer = .short)
    (hf : (g.parse (buffer ++ chunks.flatten)).ending = .failed e) :
    ∃ f, feed push buffer chunks = some f ∧ f.error = some e ∧
      f.delivered <+: (g.parse (buffer ++ chunks.flatten)).messages := by
  induction chunks generalizing buffer with
  | nil =>
    rw [List.flatten_nil, List.append_nil, g.parse_short hb] at hf
    cases hf
  | cons chunk chunks ih =>
    simp only [List.flatten_cons, ← List.append_assoc] at hf ⊢
    cases hc : (g.parse (buffer ++ chunk)).ending with
    | failed e' =>
      rw [g.parse_append_failed _ hc, hc] at hf
      cases hf
      obtain ⟨kept, hp⟩ := h.failed hc
      exact ⟨⟨[], some e, kept⟩, by simp only [feed, hp], rfl, List.nil_prefix⟩
    | waiting kept =>
      rw [g.parse_append_waiting _ hc] at hf ⊢
      obtain ⟨f, hfeed, he, hd⟩ := ih (g.scan_rest hc) hf
      refine ⟨⟨(g.parse (buffer ++ chunk)).messages ++ f.delivered, f.error, f.buffer⟩,
        ?_, he, (List.prefix_append_right_inj _).mpr hd⟩
      simp only [feed, h.waiting hc, hfeed, Option.map_some]

/-- A decoder never crashes, reports an error exactly when the bytes it was fed hold a
rejected unit behind complete ones, and delivers messages from in front of it only. -/
theorem feed_spec (h : Implements g push) {buffer : List β} (chunks : List (List β))
    (hb : g.scan buffer = .short) :
    ∃ f, feed push buffer chunks = some f ∧
      f.delivered <+: (g.parse (buffer ++ chunks.flatten)).messages ∧
      ∀ e, f.error = some e ↔ (g.parse (buffer ++ chunks.flatten)).ending = .failed e := by
  cases hp : (g.parse (buffer ++ chunks.flatten)).ending with
  | waiting rest =>
    exact ⟨_, feed_waiting h hb hp, List.prefix_rfl, by simp⟩
  | failed e =>
    obtain ⟨f, hfeed, he, hd⟩ := feed_failed h hb hp
    exact ⟨f, hfeed, hd, by simp [he]⟩

end Feeding

end Climon.Lib.Framing
