import Climon.Lib.JsonCost

namespace Climon.Lib.JsonBounds

open Climon.Lib.JsonCost Climon.Lib.JsonPrint Climon.Lib.JsonText Climon.Lib.JsonValue

/-!
# What a text is too short, or its reader too narrow, to be read to

A value has strings that its text has paid for, and nests no deeper than its reader allows.
-/

/-! ## What a value needs -/

mutual

/-- The cost of the strings in a value, escaped, and of its words. -/
def need : Json → Nat
  | .null | .bool true => 1
  | .bool false | .number _ => 0
  | .string s => cost (escape s)
  | .array items => needItems items
  | .object fields => needFields fields

def needItems : List Json → Nat
  | [] => 0
  | item :: items => need item + needItems items

def needFields : List (String × Json) → Nat
  | [] => 0
  | (key, value) :: fields => cost (escape key) + need value + needFields fields

end

def frameNeed : Frame → Nat
  | .array items => needItems items
  | .object fields key => needFields fields + cost (escape key)

def stackNeed (stack : List Frame) : Nat := (stack.map frameNeed).sum

def parserNeed : Parser → Nat
  | .value stack | .firstItem stack | .firstKey stack => stackNeed stack
  | .key fields stack => needFields fields + stackNeed stack
  | .colon fields key stack => needFields fields + cost (escape key) + stackNeed stack
  | .after value stack => need value + stackNeed stack

section Needs

variable {r : Reader} {p p' : Parser} {token : Token} {tokens : List Token} {value : Json}
  {items : List Json} {fields : List (String × Json)} {key : String} {stack : List Frame}
  {text : List Char} {n : Nat}

theorem needItems_eq : needItems items = (items.map need).sum := by
  induction items with
  | nil => rfl
  | cons item items ih => rw [needItems, ih, List.map_cons, List.sum_cons]

theorem needFields_eq :
    needFields fields = (fields.map fun field => cost (escape field.1) + need field.2).sum := by
  induction fields with
  | nil => rfl
  | cons field fields ih => rw [needFields, ih, List.map_cons, List.sum_cons]

theorem stackNeed_cons {frame : Frame} :
    stackNeed (frame :: stack) = frameNeed frame + stackNeed stack := by
  rw [stackNeed, List.map_cons, List.sum_cons, stackNeed]

theorem needItems_concat : needItems (items ++ [value]) = needItems items + need value := by
  simp [needItems_eq]

theorem needFields_insert : needFields (insertField fields key value) ≤
    needFields fields + cost (escape key) + need value := by
  have hfilter := ((List.filter_sublist (l := fields) (p := fun field => field.1 != key)).map
    fun field => cost (escape field.1) + need field.2).sum_le_sum fun _ _ => Nat.zero_le _
  have hperm := (List.perm_orderedInsert (fun f g : String × Json => f.1 ≤ g.1) (key, value)
    (fields.filter fun field => field.1 != key)).map fun field => cost (escape field.1) + need field.2
  rw [needFields_eq, needFields_eq, insertField, hperm.sum_eq, List.map_cons, List.sum_cons]
  simp only at hfilter ⊢
  omega

theorem readWord_need (h : r.readWord text = some value) : need value ≤ cost text := by
  unfold Reader.readWord at h
  split_ifs at h with hnull htrue hfalse hnumber
  · obtain rfl := Option.some.inj h
    subst hnull
    decide
  · obtain rfl := Option.some.inj h
    subst htrue
    decide
  · obtain rfl := Option.some.inj h
    exact Nat.zero_le _
  · obtain ⟨n, -, rfl⟩ := Option.map_eq_some_iff.mp h
    exact Nat.zero_le _

theorem startValue_need (htidy : ∀ raw, token = .string raw → Tidy raw)
    (h : r.startValue stack token = some p') : parserNeed p' ≤ stackNeed stack + tokenCost token := by
  unfold Reader.startValue at h
  split at h
  · obtain ⟨value, hread, rfl⟩ := Option.map_eq_some_iff.mp h
    have hle := readWord_need hread
    simp only [parserNeed, tokenCost]
    omega
  · obtain ⟨s, hread, rfl⟩ := Option.map_eq_some_iff.mp h
    have hle := cost_escape_le (htidy _ rfl) hread
    simp only [parserNeed, need, tokenCost]
    omega
  · split_ifs at h
    obtain rfl := Option.some.inj h
    exact Nat.le_refl _
  · split_ifs at h
    obtain rfl := Option.some.inj h
    exact Nat.le_refl _
  · cases h

/-- A token adds to the value no more than it cost. -/
theorem step_need (htidy : ∀ raw, token = .string raw → Tidy raw) (h : r.step p token = some p') :
    parserNeed p' ≤ parserNeed p + tokenCost token := by
  unfold Reader.step at h
  split at h
  · exact startValue_need htidy h
  · obtain rfl := Option.some.inj h
    exact Nat.le_of_eq (Nat.zero_add _)
  · have hle := startValue_need htidy h
    rwa [stackNeed_cons, frameNeed, needItems, Nat.zero_add] at hle
  · obtain rfl := Option.some.inj h
    exact Nat.le_of_eq (Nat.zero_add _)
  · obtain ⟨key, hread, rfl⟩ := Option.map_eq_some_iff.mp h
    have hle := cost_escape_le (htidy _ rfl) hread
    simp only [parserNeed, needFields, tokenCost]
    omega
  · obtain ⟨key, hread, rfl⟩ := Option.map_eq_some_iff.mp h
    have hle := cost_escape_le (htidy _ rfl) hread
    simp only [parserNeed, tokenCost]
    omega
  · obtain rfl := Option.some.inj h
    exact Nat.le_refl _
  · obtain rfl := Option.some.inj h
    simp only [parserNeed, stackNeed_cons, frameNeed, needItems_concat]
    omega
  · obtain rfl := Option.some.inj h
    simp only [parserNeed, stackNeed_cons, frameNeed, need, needItems_concat]
    omega
  · next value fields key stack =>
    obtain rfl := Option.some.inj h
    have hle := @needFields_insert value fields key
    simp only [parserNeed, stackNeed_cons, frameNeed]
    omega
  · next value fields key stack =>
    obtain rfl := Option.some.inj h
    have hle := @needFields_insert value fields key
    simp only [parserNeed, stackNeed_cons, frameNeed, need]
    omega
  · cases h

theorem run_need (htidy : ∀ raw, .string raw ∈ tokens → Tidy raw) (h : r.run p tokens = some p') :
    parserNeed p' ≤ parserNeed p + tokensCost tokens := by
  induction tokens generalizing p with
  | nil =>
    obtain rfl := Option.some.inj h
    exact Nat.le_refl _
  | cons token tokens ih =>
    rw [Reader.run_parser_cons, Option.bind_eq_some_iff] at h
    obtain ⟨next, hnext, h⟩ := h
    have hfirst := step_need (fun raw hraw => htidy raw (hraw ▸ List.mem_cons_self)) hnext
    have hrest := ih (fun raw hraw => htidy raw (List.mem_cons_of_mem _ hraw)) h
    rw [tokensCost, List.map_cons, List.sum_cons, ← tokensCost]
    omega

theorem readable_of_map {raw : List Char} {f : String → Parser}
    (h : (readString raw).map f = some p') : (readString raw).isSome = true := by
  obtain ⟨s, hread, -⟩ := Option.map_eq_some_iff.mp h
  rw [hread]
  rfl

/-- Only strings that can be read are passed. -/
theorem step_readable {raw : List Char} (h : r.step p (.string raw) = some p') :
    (readString raw).isSome = true := by
  cases p with
  | value stack => exact readable_of_map h
  | firstItem stack => exact readable_of_map h
  | firstKey stack => exact readable_of_map h
  | key fields stack => exact readable_of_map h
  | colon fields key stack => cases h
  | after value stack => rcases stack with _ | ⟨_ | _, _⟩ <;> cases h

/-- Every token passes a step. -/
theorem forall_of_run {Q : Token → Prop}
    (hstep : ∀ p p' token, r.step p token = some p' → Q token) (h : r.run p tokens = some p') :
    ∀ token ∈ tokens, Q token := by
  induction tokens generalizing p with
  | nil => exact List.forall_mem_nil _
  | cons token tokens ih =>
    rw [Reader.run_parser_cons, Option.bind_eq_some_iff] at h
    obtain ⟨next, hnext, h⟩ := h
    exact List.forall_mem_cons.mpr ⟨hstep _ _ _ hnext, ih h⟩

theorem readable_of_run {raw : List Char} (h : r.run p tokens = some p')
    (hraw : .string raw ∈ tokens) : (readString raw).isSome = true := by
  have hstep : ∀ p p' token, r.step p token = some p' →
      ∀ raw, token = .string raw → (readString raw).isSome = true := by
    rintro p p' token hnext raw rfl
    exact step_readable hnext
  exact forall_of_run hstep h _ hraw raw rfl

theorem finish_eq (h : p.finish = some value) : p = .after value [] := by
  unfold Parser.finish at h
  split at h
  · rw [Option.some.inj h]
  · cases h

/-- A value is read only from a text that spends what the value needs. -/
theorem need_le_of_read (hspends : Spends text n) (h : r.read .nothing text = some value) :
    need value ≤ n := by
  rw [Reader.read, Option.bind_eq_some_iff] at h
  obtain ⟨tokens, hlex, hparse⟩ := h
  rw [Reader.parse, Option.bind_eq_some_iff] at hparse
  obtain ⟨p, hrun, hfinish⟩ := hparse
  obtain rfl := finish_eq hfinish
  have hneed := run_need (fun raw hraw => tidy_of_lex hlex hraw) hrun
  have hcost := tokensCost_le hspends hlex fun raw hraw hline => by
    have hread := readable_of_run hrun hraw
    rw [readString, readUnits_lineEnd hline] at hread
    cases hread
  simp only [parserNeed, stackNeed, List.map_nil, List.sum_nil] at hneed
  omega

theorem cost_number (h : isNumber text = true) : cost text = 0 := by
  refine cost_eq_zero fun c hc => ?_
  have hchar := isNumber_chars h c hc
  refine ⟨?_, ?_⟩
  · rintro rfl
    cases hchar
  · rintro rfl
    cases hchar

theorem cost_commas {texts : List (List Char)} :
    cost (commas ',' texts) = (texts.map cost).sum := by
  cases texts with
  | nil => rfl
  | cons text texts =>
    have hcomma : weight ',' = 0 := by decide
    simp [commas, cost_flatMap, hcomma]

theorem cost_quoted {raw : List Char} : cost (quoted raw) = cost raw := by
  have hquote : weight '"' = 0 := by decide
  simp [quoted, hquote]

/-- A print costs what its value needs. -/
theorem cost_print {floatText : Rat → List Char}
    (h : ∀ n ∈ numbers value, isNumber (numberText floatText n) = true) :
    cost (print floatText value) = need value := by
  induction value using Json.induction with
  | null =>
    change cost "null".toList = 1
    decide
  | bool b =>
    cases b with
    | false =>
      change cost "false".toList = 0
      decide
    | true =>
      change cost "true".toList = 1
      decide
  | number n => exact cost_number (h n List.mem_cons_self)
  | string s => exact cost_quoted
  | array items ih =>
    have hopen : weight '[' = 0 := by decide
    have hclose : weight ']' = 0 := by decide
    have hitems : items.map (fun item => cost (print floatText item)) = items.map need :=
      List.map_congr_left fun item hitem => ih item hitem fun n hn =>
        h n (mem_numbersItems.mpr ⟨item, hitem, hn⟩)
    rw [print, printItems_eq, need, needItems_eq, cost_append, cost_cons, cost_commas, List.map_map,
      ← hitems, hopen, cost_cons, hclose]
    exact Nat.zero_add _
  | object fields ih =>
    have hopen : weight '\x7b' = 0 := by decide
    have hclose : weight '\x7d' = 0 := by decide
    have hcolon : weight ':' = 0 := by decide
    have hfields : fields.map (fun field => cost (quoted (escape field.1) ++
        ':' :: print floatText field.2)) =
          fields.map fun field => cost (escape field.1) + need field.2 := by
      refine List.map_congr_left fun field hfield => ?_
      rw [cost_append, cost_quoted, cost_cons, hcolon, Nat.zero_add, ih field hfield fun n hn =>
        h n (mem_numbersFields.mpr ⟨field, hfield, hn⟩)]
    rw [print, printFields_eq, need, needFields_eq, cost_append, cost_cons, cost_commas, List.map_map,
      ← hfields, hopen, cost_cons, hclose]
    exact Nat.zero_add _

end Needs

/-! ## How deep a value nests -/

def frameNesting : Frame → Nat
  | .array items => Json.nestingItems items
  | .object fields _ => Json.nestingFields fields

/-- The deepest nesting so far, counted from outside the stack. -/
def stackReach : List Frame → Nat
  | [] => 0
  | frame :: stack => max (frameNesting frame + (stack.length + 1)) (stackReach stack)

def reach : Parser → Nat
  | .value stack => stackReach stack
  | .firstItem stack | .firstKey stack => max (stack.length + 1) (stackReach stack)
  | .key fields stack | .colon fields _ stack =>
    max (Json.nestingFields fields + (stack.length + 1)) (stackReach stack)
  | .after value stack => max (value.nesting + stack.length) (stackReach stack)

section Depth

variable {r : Reader} {p p' : Parser} {token : Token} {tokens : List Token} {value : Json}
  {items : List Json} {fields : List (String × Json)} {key : String} {stack : List Frame}
  {text : List Char} {comments : Comments} {d : Nat}

theorem length_le_stackReach : stack.length ≤ stackReach stack := by
  cases stack with
  | nil => exact Nat.le_refl 0
  | cons frame stack =>
    rw [List.length_cons, stackReach]
    omega

theorem nestingItems_concat :
    Json.nestingItems (items ++ [value]) = max (Json.nestingItems items) value.nesting := by
  induction items with
  | nil => simp [Json.nestingItems]
  | cons item items ih => rw [List.cons_append, Json.nestingItems, ih, Json.nestingItems, Nat.max_assoc]

theorem nestingFields_insert : Json.nestingFields (insertField fields key value) ≤
    max (Json.nestingFields fields) value.nesting := by
  rw [Json.nestingFields_le_iff]
  intro field hfield
  rw [insertField, List.mem_orderedInsert] at hfield
  rcases hfield with rfl | hfield
  · exact Nat.le_max_right _ _
  · have hle := Json.nestingFields_le_iff.mp (Nat.le_refl _) field (List.mem_of_mem_filter hfield)
    omega

theorem startValue_reach (hd : d ∈ r.depth) (hstack : stackReach stack ≤ d)
    (h : r.startValue stack token = some p') : reach p' ≤ d := by
  have hlength := @length_le_stackReach stack
  have hroom : r.roomFor stack = true → stack.length < d := by
    intro hroom
    rw [Reader.roomFor, Option.all_eq_true] at hroom
    exact of_decide_eq_true (hroom d hd)
  unfold Reader.startValue at h
  split at h
  · obtain ⟨value, hread, rfl⟩ := Option.map_eq_some_iff.mp h
    have hleaf : value.nesting = 0 := by
      unfold Reader.readWord at hread
      split_ifs at hread
      · obtain rfl := Option.some.inj hread
        rfl
      · obtain rfl := Option.some.inj hread
        rfl
      · obtain rfl := Option.some.inj hread
        rfl
      · obtain ⟨n, -, rfl⟩ := Option.map_eq_some_iff.mp hread
        rfl
    rw [reach]
    omega
  · obtain ⟨s, -, rfl⟩ := Option.map_eq_some_iff.mp h
    have hleaf : (Json.string s).nesting = 0 := rfl
    rw [reach, hleaf]
    omega
  · split_ifs at h with hopen
    obtain rfl := Option.some.inj h
    have hopen := hroom hopen
    rw [reach]
    omega
  · split_ifs at h with hopen
    obtain rfl := Option.some.inj h
    have hopen := hroom hopen
    rw [reach]
    omega
  · cases h

theorem step_reach (hd : d ∈ r.depth) (hreach : reach p ≤ d) (h : r.step p token = some p') :
    reach p' ≤ d := by
  unfold Reader.step at h
  split at h
  · exact startValue_reach hd hreach h
  · obtain rfl := Option.some.inj h
    simp only [reach, Json.nesting, Json.nestingItems] at hreach ⊢
    omega
  · refine startValue_reach hd ?_ h
    simpa only [reach, stackReach, frameNesting, Json.nestingItems, Nat.zero_add] using hreach
  · obtain rfl := Option.some.inj h
    simp only [reach, Json.nesting, Json.nestingFields] at hreach ⊢
    omega
  · obtain ⟨key, -, rfl⟩ := Option.map_eq_some_iff.mp h
    simp only [reach, Json.nestingFields] at hreach ⊢
    omega
  · obtain ⟨key, -, rfl⟩ := Option.map_eq_some_iff.mp h
    exact hreach
  · obtain rfl := Option.some.inj h
    exact hreach
  · obtain rfl := Option.some.inj h
    simp only [reach, stackReach, frameNesting, List.length_cons, nestingItems_concat] at hreach ⊢
    omega
  · obtain rfl := Option.some.inj h
    simp only [reach, stackReach, frameNesting, List.length_cons, Json.nesting,
      nestingItems_concat] at hreach ⊢
    omega
  · next value fields key stack =>
    obtain rfl := Option.some.inj h
    have hle := @nestingFields_insert value fields key
    simp only [reach, stackReach, frameNesting, List.length_cons] at hreach ⊢
    omega
  · next value fields key stack =>
    obtain rfl := Option.some.inj h
    have hle := @nestingFields_insert value fields key
    simp only [reach, stackReach, frameNesting, List.length_cons, Json.nesting] at hreach ⊢
    omega
  · cases h

theorem run_reach (hd : d ∈ r.depth) (hreach : reach p ≤ d) (h : r.run p tokens = some p') :
    reach p' ≤ d := by
  induction tokens generalizing p with
  | nil =>
    obtain rfl := Option.some.inj h
    exact hreach
  | cons token tokens ih =>
    rw [Reader.run_parser_cons, Option.bind_eq_some_iff] at h
    obtain ⟨next, hnext, h⟩ := h
    exact ih (step_reach hd hreach hnext) h

/-- No value is read that nests deeper than its reader allows. -/
theorem nesting_le_of_read (h : r.read comments text = some value) :
    ∀ d ∈ r.depth, value.nesting ≤ d := by
  intro d hd
  rw [Reader.read, Option.bind_eq_some_iff] at h
  obtain ⟨tokens, -, hparse⟩ := h
  rw [Reader.parse, Option.bind_eq_some_iff] at hparse
  obtain ⟨p, hrun, hfinish⟩ := hparse
  obtain rfl := finish_eq hfinish
  have hstart : reach (.value []) ≤ d := Nat.zero_le d
  have hreach := run_reach hd hstart hrun
  rw [reach] at hreach
  exact (Nat.le_max_left _ _).trans hreach

end Depth

/-! ## What holds of every value that is read -/

section Induction

variable {r : Reader} {P : Json → Prop} {p p' : Parser} {token : Token} {tokens : List Token}
  {value : Json} {fields : List (String × Json)} {key : String} {stack : List Frame}
  {text : List Char} {comments : Comments}

/-- In order, and with values that have the property. -/
def FieldsHold (P : Json → Prop) (fields : List (String × Json)) : Prop :=
  Sorted fields ∧ ∀ field ∈ fields, P field.2

def FrameHolds (P : Json → Prop) : Frame → Prop
  | .array items => ∀ item ∈ items, P item
  | .object fields _ => FieldsHold P fields

def Holds (P : Json → Prop) : Parser → Prop
  | .value stack | .firstItem stack | .firstKey stack => ∀ frame ∈ stack, FrameHolds P frame
  | .key fields stack | .colon fields _ stack =>
    FieldsHold P fields ∧ ∀ frame ∈ stack, FrameHolds P frame
  | .after value stack => P value ∧ ∀ frame ∈ stack, FrameHolds P frame

theorem sorted_insertField (h : Sorted fields) : Sorted (insertField fields key value) := by
  have hfilter : Sorted (fields.filter fun field => field.1 != key) := h.filter _
  have hle := @pairwise_insertField fields key value
    (h.imp fun hlt => String.not_lt.mp (String.lt_asymm hlt))
  have hnew : key ∉ (fields.filter fun field => field.1 != key).map (·.1) := by
    rw [List.mem_map]
    rintro ⟨field, hfield, rfl⟩
    simp [List.mem_filter] at hfield
  have hperm := (List.perm_orderedInsert (fun f g : String × Json => f.1 ≤ g.1) (key, value)
    (fields.filter fun field => field.1 != key)).map (·.1)
  have hnodup : ((insertField fields key value).map (·.1)).Nodup := by
    rw [insertField, hperm.nodup_iff, List.map_cons, List.nodup_cons]
    exact ⟨hnew, hfilter.nodup⟩
  rw [List.Nodup, List.pairwise_map] at hnodup
  refine (hle.and hnodup).imp fun hboth => ?_
  by_contra hlt
  exact hboth.2 (String.le_antisymm hboth.1 (String.not_lt.mp hlt))

theorem mem_insertField {field : String × Json} (h : field ∈ insertField fields key value) :
    field = (key, value) ∨ field ∈ fields := by
  rw [insertField, List.mem_orderedInsert] at h
  exact h.imp_right List.mem_of_mem_filter

theorem FieldsHold.insert (h : FieldsHold P fields) (hvalue : P value) :
    FieldsHold P (insertField fields key value) := by
  refine ⟨sorted_insertField h.1, fun field hfield => ?_⟩
  cases mem_insertField hfield with
  | inl heq =>
    subst heq
    exact hvalue
  | inr hmem => exact h.2 field hmem

/-- What holds of words, strings and containers of what it holds of. -/
structure Inductive (r : Reader) (P : Json → Prop) : Prop where
  word : ∀ text value, r.readWord text = some value → P value
  string : ∀ s, P (.string s)
  array : ∀ items, (∀ item ∈ items, P item) → P (.array items)
  object : ∀ fields, Sorted fields → (∀ field ∈ fields, P field.2) → P (.object fields)

theorem startValue_holds (hP : Inductive r P) (hstack : ∀ frame ∈ stack, FrameHolds P frame)
    (h : r.startValue stack token = some p') : Holds P p' := by
  unfold Reader.startValue at h
  split at h
  · obtain ⟨value, hread, rfl⟩ := Option.map_eq_some_iff.mp h
    exact ⟨hP.word _ _ hread, hstack⟩
  · obtain ⟨s, -, rfl⟩ := Option.map_eq_some_iff.mp h
    exact ⟨hP.string s, hstack⟩
  · split_ifs at h
    obtain rfl := Option.some.inj h
    exact hstack
  · split_ifs at h
    obtain rfl := Option.some.inj h
    exact hstack
  · cases h

theorem step_holds (hP : Inductive r P) (hp : Holds P p) (h : r.step p token = some p') :
    Holds P p' := by
  have hempty : FieldsHold P [] := ⟨.nil, nofun⟩
  unfold Reader.step at h
  split at h
  · exact startValue_holds hP hp h
  · obtain rfl := Option.some.inj h
    exact ⟨hP.array [] (List.forall_mem_nil _), hp⟩
  · have harray : FrameHolds P (.array []) := List.forall_mem_nil _
    exact startValue_holds hP (List.forall_mem_cons.mpr ⟨harray, hp⟩) h
  · obtain rfl := Option.some.inj h
    exact ⟨hP.object [] .nil (List.forall_mem_nil _), hp⟩
  · obtain ⟨key, -, rfl⟩ := Option.map_eq_some_iff.mp h
    exact ⟨hempty, hp⟩
  · obtain ⟨key, -, rfl⟩ := Option.map_eq_some_iff.mp h
    exact hp
  · obtain rfl := Option.some.inj h
    exact List.forall_mem_cons.mpr hp
  · next value items stack =>
    obtain rfl := Option.some.inj h
    obtain ⟨hvalue, hstack⟩ := hp
    rw [List.forall_mem_cons] at hstack
    refine List.forall_mem_cons.mpr ⟨?_, hstack.2⟩
    exact List.forall_mem_append.mpr ⟨hstack.1, List.forall_mem_singleton.mpr hvalue⟩
  · next value items stack =>
    obtain rfl := Option.some.inj h
    obtain ⟨hvalue, hstack⟩ := hp
    rw [List.forall_mem_cons] at hstack
    refine ⟨hP.array _ ?_, hstack.2⟩
    exact List.forall_mem_append.mpr ⟨hstack.1, List.forall_mem_singleton.mpr hvalue⟩
  · next value fields key stack =>
    obtain rfl := Option.some.inj h
    obtain ⟨hvalue, hstack⟩ := hp
    rw [List.forall_mem_cons] at hstack
    have hfields : FieldsHold P fields := hstack.1
    exact ⟨hfields.insert hvalue, hstack.2⟩
  · next value fields key stack =>
    obtain rfl := Option.some.inj h
    obtain ⟨hvalue, hstack⟩ := hp
    rw [List.forall_mem_cons] at hstack
    have hfields : FieldsHold P fields := hstack.1
    have hinsert := @FieldsHold.insert _ _ _ key hfields hvalue
    exact ⟨hP.object _ hinsert.1 hinsert.2, hstack.2⟩
  · cases h

theorem run_holds (hP : Inductive r P) (hp : Holds P p) (h : r.run p tokens = some p') :
    Holds P p' := by
  induction tokens generalizing p with
  | nil =>
    obtain rfl := Option.some.inj h
    exact hp
  | cons token tokens ih =>
    rw [Reader.run_parser_cons, Option.bind_eq_some_iff] at h
    obtain ⟨next, hnext, h⟩ := h
    exact ih (step_holds hP hp hnext) h

theorem Inductive.read (hP : Inductive r P) (h : r.read comments text = some value) : P value := by
  rw [Reader.read, Option.bind_eq_some_iff] at h
  obtain ⟨tokens, -, hparse⟩ := h
  rw [Reader.parse, Option.bind_eq_some_iff] at hparse
  obtain ⟨p, hrun, hfinish⟩ := hparse
  obtain rfl := finish_eq hfinish
  have hstart : Holds P (.value []) := fun _ hframe => absurd hframe List.not_mem_nil
  exact (run_holds hP hstart hrun).1

theorem ordered_of_read (h : r.read comments text = some value) : Ordered value := by
  have hP : Inductive r Ordered := by
    refine ⟨fun text value hread => ?_, .string, fun _ => .array, fun _ => .object⟩
    unfold Reader.readWord at hread
    split_ifs at hread
    · obtain rfl := Option.some.inj hread
      exact .null
    · obtain rfl := Option.some.inj hread
      exact .bool true
    · obtain rfl := Option.some.inj hread
      exact .bool false
    · obtain ⟨n, -, rfl⟩ := Option.map_eq_some_iff.mp hread
      exact .number n
  exact hP.read h

/-- The numbers in a value are those that the reader makes of words. -/
theorem numbers_of_read (h : r.read comments text = some value) :
    ∀ n ∈ numbers value, ∃ word, r.number word = some n := by
  have hP : Inductive r fun value => ∀ n ∈ numbers value, ∃ word, r.number word = some n := by
    refine ⟨fun text value hread => ?_, fun _ _ hn => absurd hn List.not_mem_nil,
      fun items hitems n hn => ?_, fun fields _ hfields n hn => ?_⟩
    · unfold Reader.readWord at hread
      split_ifs at hread
      · obtain rfl := Option.some.inj hread
        exact nofun
      · obtain rfl := Option.some.inj hread
        exact nofun
      · obtain rfl := Option.some.inj hread
        exact nofun
      · obtain ⟨n, hn, rfl⟩ := Option.map_eq_some_iff.mp hread
        intro m hm
        rw [List.mem_singleton.mp hm]
        exact ⟨text, hn⟩
    · obtain ⟨item, hitem, hmem⟩ := mem_numbersItems.mp hn
      exact hitems item hitem n hmem
    · obtain ⟨field, hfield, hmem⟩ := mem_numbersFields.mp hn
      exact hfields field hfield n hmem
  exact hP.read h

end Induction

end Climon.Lib.JsonBounds
