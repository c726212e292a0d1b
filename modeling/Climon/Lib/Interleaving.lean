import Climon.Lib.Framing

namespace Climon.Lib.Interleaving

open Climon.Lib.Framing

/-!
# Interleaved streams

Several streams are cut into chunks, and the chunks are put one after the other. Where nobody is
interrupted inside a unit, the units of the whole are those of the streams, interleaved.
-/

variable {ι α β ε : Type}

def merged (chunks : List (ι × List β)) : List β := (chunks.map (·.2)).flatten

theorem merged_append (xs ys : List (ι × List β)) :
    merged (xs ++ ys) = merged xs ++ merged ys := by
  simp [merged]

variable [DecidableEq ι]

/-- What one party contributed, in order. -/
def project (i : ι) (entries : List (ι × α)) : List α :=
  (entries.filter fun entry => entry.1 = i).map (·.2)

@[simp] theorem project_nil (i : ι) : project i ([] : List (ι × α)) = [] := rfl

@[simp] theorem project_append (i : ι) (xs ys : List (ι × α)) :
    project i (xs ++ ys) = project i xs ++ project i ys := by
  simp [project]

@[simp] theorem project_tagged_self (i : ι) (xs : List α) :
    project i (xs.map fun x => (i, x)) = xs := by
  simp [project, List.filter_map, Function.comp_def]

theorem project_tagged_ne {i j : ι} (h : i ≠ j) (xs : List α) :
    project i (xs.map fun x => (j, x)) = [] := by
  simp [project, List.filter_map, Function.comp_def, h.symm]

def stream (i : ι) (chunks : List (ι × List β)) : List β := (project i chunks).flatten

theorem stream_append (i : ι) (xs ys : List (ι × List β)) :
    stream i (xs ++ ys) = stream i xs ++ stream i ys := by
  simp [stream]

theorem stream_singleton_self (i : ι) (chunk : List β) : stream i [(i, chunk)] = chunk := by
  simp [stream, project]

theorem stream_singleton_ne {i j : ι} (h : i ≠ j) (chunk : List β) :
    stream i [(j, chunk)] = [] := by
  simp [stream, project, h.symm]

/-- When a chunk comes, the streams of the others stand at the end of a unit. -/
inductive Aligned (g : Grammar β α ε) : List (ι × List β) → Prop where
  | nil : Aligned g []
  | snoc {chunks : List (ι × List β)} {i : ι} {chunk : List β} : Aligned g chunks →
      (∀ j ≠ i, (g.parse (stream j chunks)).ending = .waiting []) →
      Aligned g (chunks ++ [(i, chunk)])

variable {g : Grammar β α ε}

theorem Aligned.front {chunks front : List (ι × List β)} (h : Aligned g chunks)
    (hfront : front <+: chunks) : Aligned g front := by
  induction h with
  | nil =>
    cases List.prefix_nil.mp hfront
    exact .nil
  | snoc haligned hothers ih =>
    rcases List.prefix_concat_iff.mp hfront with rfl | hshorter
    · exact haligned.snoc hothers
    · exact ih hshorter

/-- The units of the whole are those of the streams in some order, and it waits for what the
interrupted stream waits for. -/
theorem Aligned.parse (hwaits : ∀ xs, ∃ rest, (g.parse xs).ending = .waiting rest)
    {chunks : List (ι × List β)} (h : Aligned g chunks) :
    ∃ (order : List (ι × α)) (rest : List β),
      g.parse (merged chunks) = ⟨order.map (·.2), .waiting rest⟩ ∧
      (∀ i, project i order = (g.parse (stream i chunks)).messages) ∧
      ∀ i, (∀ j ≠ i, (g.parse (stream j chunks)).ending = .waiting []) →
        (g.parse (stream i chunks)).ending = .waiting rest := by
  have hnil : g.parse [] = ⟨[], .waiting []⟩ := by
    apply g.parse_short
    cases hscan : g.scan [] with
    | short => rfl
    | bad e =>
      obtain ⟨rest, hrest⟩ := hwaits []
      rw [g.parse_bad hscan] at hrest
      cases hrest
    | unit n m =>
      have hpos := g.unit_pos hscan
      have hle := g.unit_le hscan
      rw [List.length_nil] at hle
      omega
  induction h with
  | nil =>
    exact ⟨[], [], hnil, fun i => by simp [stream, hnil], fun i _ => by simp [stream, hnil]⟩
  | @snoc chunks i chunk haligned hothers ih =>
    obtain ⟨order, rest, hparse, hproject, hending⟩ := ih
    have hself := hending i hothers
    obtain ⟨rest', hrest'⟩ := hwaits (rest ++ chunk)
    have hstream (j : ι) : stream j (chunks ++ [(i, chunk)]) =
        if j = i then stream i chunks ++ chunk else stream j chunks := by
      rw [stream_append]
      split
      next hji => rw [hji, stream_singleton_self]
      next hji => rw [stream_singleton_ne hji, List.append_nil]
    have hgrown : g.parse (stream i chunks ++ chunk) =
        (g.parse (rest ++ chunk)).after (g.parse (stream i chunks)).messages :=
      g.parse_append_waiting chunk hself
    refine ⟨order ++ (g.parse (rest ++ chunk)).messages.map fun m => (i, m), rest', ?_, ?_, ?_⟩
    · have hwhole : (g.parse (merged chunks)).ending = .waiting rest := by rw [hparse]
      rw [merged_append, show merged [(i, chunk)] = chunk by simp [merged],
        g.parse_append_waiting chunk hwhole, hparse]
      simp [Parse.after, hrest', Function.comp_def]
    · intro j
      rw [hstream, project_append, hproject]
      split
      next hji =>
        rw [hji, project_tagged_self, hgrown, Parse.messages_after]
      next hji => rw [project_tagged_ne hji, List.append_nil]
    · intro j hall
      by_cases hji : j = i
      · rw [hstream, if_pos hji, hgrown, Parse.ending_after, hrest']
      · have hi := hall i (Ne.symm hji)
        rw [hstream, if_pos rfl, hgrown, Parse.ending_after, hrest'] at hi
        rw [hstream, if_neg hji, hothers j hji, hi]

end Climon.Lib.Interleaving
