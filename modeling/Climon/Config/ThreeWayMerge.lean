import Climon.Config.ConfigMerge
import Climon.Lib.Utf16

namespace Climon.Config.ThreeWayMerge

open Climon.Config.ConfigMerge Climon.Lib.Utf16 Climon.Lib.ValueTree

/-!
# The three-way merge law

A leaf path has a value that is no section. At each of them a save writes the caller's value where
the caller changed it, and what is on disk elsewhere, unless the path is inside something that the
diff replaces or deletes as a whole.
-/

/-- The caller changed, added or deleted the leaf at the path. -/
def Changed (golden caller : Option Value) (path : List Key) : Prop :=
  ¬ Same (leafAt golden path) (leafAt caller path)

structure ThreeWay (golden caller latest written : Option Value) (path : List Key) : Prop where
  kept : ¬ Changed golden caller path → Same (leafAt written path) (leafAt latest path)
  edited : Changed golden caller path → Same (leafAt written path) (leafAt caller path)

/-- The value at the front of the path, or at the path itself, is one entry of the diff. -/
def Covers (golden caller : Option Value) (path front : List Key) : Prop :=
  ¬ Same (valueAt golden front) (valueAt caller front) ∧
    (front = path ∨
      ¬ (isRecord (valueAt golden front) = true ∧ isRecord (valueAt caller front) = true))

/-- Only the config on disk has a leaf at the path, and an entry of the diff covers it. -/
structure Overwritten (golden caller latest : Option Value) (path : List Key) : Prop where
  noGolden : leafAt golden path = none
  noCaller : leafAt caller path = none
  onDisk : leafAt latest path ≠ none
  covered : ∃ front, front <+: path ∧ Covers golden caller path front

/-- One of the two edits leaves the value at the path alone, both make the same of it, or it is
a section to all. -/
def Compatible (golden caller other : Option Value) (path : List Key) : Prop :=
  Same (valueAt golden path) (valueAt caller path) ∨
    Same (valueAt golden path) (valueAt other path) ∨
    Same (valueAt caller path) (valueAt other path) ∨
    isRecord (valueAt golden path) = true ∧ isRecord (valueAt caller path) = true ∧
      isRecord (valueAt other path) = true

section Law

variable {golden caller latest written : Option Value} {path : List Key} {key : Key}

theorem changed_or_of_leaf (h : Changed golden caller path) :
    leafAt golden path ≠ none ∨ leafAt caller path ≠ none := by
  by_contra hnone
  push Not at hnone
  apply h
  rw [hnone.1, hnone.2]

/-- Nothing of an unchanged value is covered. -/
theorem not_covers_of_same (h : Same golden caller) (front : List Key) :
    ¬ Covers golden caller path front := fun hcovers => hcovers.1 (h.valueAt front)

theorem threeWay_of_same (h : Same golden caller) (hwritten : written = latest) :
    ThreeWay golden caller latest written path := by
  subst hwritten
  constructor
  · intro _
    rfl
  · intro hchanged
    exact absurd (h.leafAt path) hchanged

/-- A section has no leaf at its own path. -/
theorem leafAt_nil_of_isRecord {t : Option Value} (h : isRecord t = true) : leafAt t [] = none :=
  if_pos h

theorem leafAt_nil_of_not_isRecord {t : Option Value} (h : isRecord t = false) :
    leafAt t [] = t := by
  rw [leafAt, valueAt, leaf, h]
  rfl

theorem leafAt_cons_of_not_isRecord {t : Option Value} (h : isRecord t = false) :
    leafAt t (key :: path) = none := by
  rw [leafAt, valueAt, member_of_not_record h, valueAt_none]
  rfl

/-- Where the caller's value replaced what was there, the law holds unless only the disk has a
leaf. -/
theorem threeWay_replaced_iff (h : leafAt golden path = none ∨ leafAt caller path = none ∨
    Changed golden caller path) (hwritten : written = caller) :
    ThreeWay golden caller latest written path ↔
      ¬ (leafAt golden path = none ∧ leafAt caller path = none ∧ leafAt latest path ≠ none) := by
  subst hwritten
  by_cases hchanged : Changed golden written path
  · refine iff_of_true ⟨fun hsame => absurd hchanged hsame, fun _ => Same.refl _⟩ ?_
    rintro ⟨hgolden, hcaller, -⟩
    exact (changed_or_of_leaf hchanged).elim (· hgolden) (· hcaller)
  · have hsame : Same (leafAt golden path) (leafAt written path) := not_not.mp hchanged
    have hnone : leafAt golden path = none ∧ leafAt written path = none := by
      rcases h with h | h | h
      · rw [h] at hsame
        exact ⟨h, same_none_iff.mp hsame.symm⟩
      · rw [h] at hsame
        exact ⟨same_none_iff.mp hsame, h⟩
      · exact absurd h hchanged
    constructor
    · rintro hlaw ⟨-, -, hlatest⟩
      have hkept := hlaw.kept hchanged
      rw [hnone.2] at hkept
      exact hlatest (same_none_iff.mp hkept.symm)
    · intro hlost
      have hlatest : leafAt latest path = none := by
        by_contra hne
        exact hlost ⟨hnone.1, hnone.2, hne⟩
      refine ⟨fun _ => ?_, fun h => absurd h hchanged⟩
      rw [hnone.2, hlatest]

theorem threeWay_cons_iff : ThreeWay golden caller latest written (key :: path) ↔
    ThreeWay (member golden key) (member caller key) (member latest key) (member written key)
      path :=
  ⟨fun h => ⟨h.kept, h.edited⟩, fun h => ⟨h.kept, h.edited⟩⟩

theorem covers_cons_iff {front : List Key} :
    Covers golden caller (key :: path) (key :: front) ↔
      Covers (member golden key) (member caller key) path front := by
  unfold Covers
  rw [List.cons.injEq, and_iff_right rfl]
  rfl

/-- Below two sections the diff has entries of its own. -/
theorem overwritten_cons_iff (hgolden : isRecord golden = true) (hcaller : isRecord caller = true) :
    Overwritten golden caller latest (key :: path) ↔
      Overwritten (member golden key) (member caller key) (member latest key) path := by
  constructor
  · rintro ⟨hnoGolden, hnoCaller, honDisk, front, hfront, hcovers⟩
    refine ⟨hnoGolden, hnoCaller, honDisk, ?_⟩
    cases front with
    | nil =>
      rcases hcovers.2 with h | h
      · cases h
      · exact absurd ⟨hgolden, hcaller⟩ h
    | cons first front =>
      rw [List.cons_prefix_cons] at hfront
      obtain ⟨rfl, hfront⟩ := hfront
      exact ⟨front, hfront, covers_cons_iff.mp hcovers⟩
  · rintro ⟨hnoGolden, hnoCaller, honDisk, front, hfront, hcovers⟩
    exact ⟨hnoGolden, hnoCaller, honDisk, key :: front,
      List.cons_prefix_cons.mpr ⟨rfl, hfront⟩, covers_cons_iff.mpr hcovers⟩

theorem changed_or_leaf_none (hchanged : ¬ Same golden caller)
    (h : ¬ (isRecord golden = true ∧ isRecord caller = true)) :
    leafAt golden path = none ∨ leafAt caller path = none ∨ Changed golden caller path := by
  cases path with
  | nil =>
    cases hgolden : isRecord golden with
    | true => exact .inl (leafAt_nil_of_isRecord hgolden)
    | false =>
      cases hcaller : isRecord caller with
      | true => exact .inr (.inl (leafAt_nil_of_isRecord hcaller))
      | false =>
        refine .inr (.inr ?_)
        rwa [Changed, leafAt_nil_of_not_isRecord hgolden, leafAt_nil_of_not_isRecord hcaller]
  | cons key path =>
    cases hgolden : isRecord golden with
    | false => exact .inl (leafAt_cons_of_not_isRecord hgolden)
    | true =>
      have hcaller : isRecord caller = false := by
        cases hcaller : isRecord caller with
        | false => rfl
        | true => exact absurd ⟨hgolden, hcaller⟩ h
      exact .inr (.inl (leafAt_cons_of_not_isRecord hcaller))

theorem threeWay_iff_of_same (hgolden : Formed golden) (hcaller : Formed caller)
    (h : Same golden caller) :
    ThreeWay golden caller latest (mergeAt golden caller latest) path ↔
      ¬ Overwritten golden caller latest path := by
  apply iff_of_true
  · exact threeWay_of_same h (mergeAt_same hgolden hcaller h latest)
  · rintro ⟨-, -, -, front, -, hcovers⟩
    exact not_covers_of_same h front hcovers

theorem threeWay_iff_of_replaced (hgolden : Formed golden) (hcaller : Formed caller)
    (hchanged : ¬ Same golden caller)
    (h : ¬ (isRecord golden = true ∧ isRecord caller = true)) :
    ThreeWay golden caller latest (mergeAt golden caller latest) path ↔
      ¬ Overwritten golden caller latest path := by
  rw [threeWay_replaced_iff (changed_or_leaf_none hchanged h)
    (mergeAt_replaced hgolden hcaller hchanged h latest)]
  apply not_congr
  constructor
  · rintro ⟨hnoGolden, hnoCaller, honDisk⟩
    exact ⟨hnoGolden, hnoCaller, honDisk, [], List.nil_prefix, hchanged, .inr h⟩
  · intro hover
    exact ⟨hover.noGolden, hover.noCaller, hover.onDisk⟩

/-- The merge obeys the law at a path exactly where it does not overwrite what only the disk
has. -/
theorem threeWay_iff (hgolden : Formed golden) (hcaller : Formed caller) :
    ThreeWay golden caller latest (mergeAt golden caller latest) path ↔
      ¬ Overwritten golden caller latest path := by
  induction path generalizing golden caller latest with
  | nil =>
    by_cases hsame : Same golden caller
    · exact threeWay_iff_of_same hgolden hcaller hsame
    by_cases hrecord : isRecord golden = true ∧ isRecord caller = true
    · have hnoGolden := leafAt_nil_of_isRecord hrecord.1
      have hnoCaller := leafAt_nil_of_isRecord hrecord.2
      have hwritten :=
        leafAt_nil_of_isRecord (isRecord_mergeAt hgolden hcaller hsame hrecord latest).1
      have hkept : ¬ Changed golden caller [] := by
        rw [Changed, hnoGolden, hnoCaller]
        exact not_not.mpr (Same.refl none)
      constructor
      · intro hlaw hover
        have hlatest := hlaw.kept hkept
        rw [hwritten] at hlatest
        exact hover.onDisk (same_none_iff.mp hlatest.symm)
      · intro hover
        refine ⟨fun _ => ?_, fun hchanged => absurd hchanged hkept⟩
        have hlatest : leafAt latest [] = none := by
          by_contra hne
          exact hover ⟨hnoGolden, hnoCaller, hne, [], List.nil_prefix, hsame, .inl rfl⟩
        rw [hwritten, hlatest]
    · exact threeWay_iff_of_replaced hgolden hcaller hsame hrecord
  | cons key path ih =>
    by_cases hsame : Same golden caller
    · exact threeWay_iff_of_same hgolden hcaller hsame
    by_cases hrecord : isRecord golden = true ∧ isRecord caller = true
    · rw [threeWay_cons_iff, overwritten_cons_iff hrecord.1 hrecord.2,
        ← ih (hgolden.toMember key) (hcaller.toMember key),
        (isRecord_mergeAt hgolden hcaller hsame hrecord latest).2]
    · exact threeWay_iff_of_replaced hgolden hcaller hsame hrecord

/-- What the caller has is what its diff makes of the config it loaded. -/
theorem same_mergeAt_golden (hgolden : Formed golden) (hcaller : Formed caller) :
    Same (mergeAt golden caller golden) caller := by
  induction hgolden using Formed.induction generalizing caller with
  | step golden hgolden ih =>
    by_cases hsame : Same golden caller
    · rwa [mergeAt_same hgolden hcaller hsame]
    by_cases hrecord : isRecord golden = true ∧ isRecord caller = true
    · have hmerged := isRecord_mergeAt hgolden hcaller hsame hrecord golden
      rw [same_iff_of_isRecord hmerged.1 hrecord.2]
      intro key
      rw [hmerged.2 key]
      exact ih hrecord.1 key (hcaller.toMember key)
    · rw [mergeAt_replaced hgolden hcaller hsame hrecord]

end Law

/-! ## Two edits of one config -/

section Order

variable {golden caller other latest : Option Value} {path : List Key} {key : Key}

theorem compatible_of_same
    (h : Same golden caller ∨ Same golden other ∨ Same caller other) (path : List Key) :
    Compatible golden caller other path := by
  rcases h with h | h | h
  · exact .inl (h.valueAt path)
  · exact .inr (.inl (h.valueAt path))
  · exact .inr (.inr (.inl (h.valueAt path)))

/-- Where they are not all sections, one edit replaces what the other one leaves. -/
theorem same_orders_of_replaced (hgolden : Formed golden) (hcaller : Formed caller)
    (hother : Formed other) (hfirst : ¬ Same golden caller) (hsecond : ¬ Same golden other)
    (hall : ¬ (isRecord golden = true ∧ isRecord caller = true ∧ isRecord other = true)) :
    Same (mergeAt golden other (mergeAt golden caller latest))
        (mergeAt golden caller (mergeAt golden other latest)) ↔ Same caller other := by
  by_cases hg : isRecord golden = true
  · by_cases hc : isRecord caller = true
    · have ho : ¬ isRecord other = true := fun ho => hall ⟨hg, hc, ho⟩
      rw [mergeAt_replaced hgolden hother hsecond (fun h => ho h.2)]
      apply iff_of_false
      · rw [Same.comm]
        exact not_same_of_isRecord (isRecord_mergeAt hgolden hcaller hfirst ⟨hg, hc⟩ _).1 ho
      · exact not_same_of_isRecord hc ho
    · simp only [mergeAt_replaced hgolden hcaller hfirst (fun h => hc h.2)]
      by_cases ho : isRecord other = true
      · apply iff_of_false
        · exact not_same_of_isRecord (isRecord_mergeAt hgolden hother hsecond ⟨hg, ho⟩ _).1 hc
        · rw [Same.comm]
          exact not_same_of_isRecord ho hc
      · rw [mergeAt_replaced hgolden hother hsecond (fun h => ho h.2), Same.comm]
  · rw [mergeAt_replaced hgolden hother hsecond (fun h => hg h.1),
      mergeAt_replaced hgolden hcaller hfirst (fun h => hg h.1), Same.comm]

/-- Both orders end the same exactly where at every path the two edits are compatible. -/
theorem same_orders_iff (hgolden : Formed golden) (hcaller : Formed caller)
    (hother : Formed other) :
    Same (mergeAt golden other (mergeAt golden caller latest))
        (mergeAt golden caller (mergeAt golden other latest)) ↔
      ∀ path, Compatible golden caller other path := by
  induction hgolden using Formed.induction generalizing caller other latest with
  | step golden hgolden ih =>
    by_cases hfirst : Same golden caller
    · rw [mergeAt_same hgolden hcaller hfirst, mergeAt_same hgolden hcaller hfirst]
      exact iff_of_true (Same.refl _) (compatible_of_same (.inl hfirst))
    by_cases hsecond : Same golden other
    · rw [mergeAt_same hgolden hother hsecond, mergeAt_same hgolden hother hsecond]
      exact iff_of_true (Same.refl _) (compatible_of_same (.inr (.inl hsecond)))
    by_cases hall : isRecord golden = true ∧ isRecord caller = true ∧ isRecord other = true
    · obtain ⟨hg, hc, ho⟩ := hall
      have hcallerAt := isRecord_mergeAt hgolden hcaller hfirst ⟨hg, hc⟩
      have hotherAt := isRecord_mergeAt hgolden hother hsecond ⟨hg, ho⟩
      have hcallerMember (latest : Option Value) := (hcallerAt latest).2
      have hotherMember (latest : Option Value) := (hotherAt latest).2
      rw [same_iff_of_isRecord (hotherAt _).1 (hcallerAt _).1]
      simp only [hcallerMember, hotherMember]
      constructor
      · intro h path
        cases path with
        | nil => exact .inr (.inr (.inr ⟨hg, hc, ho⟩))
        | cons key path =>
          exact (ih hg key (hcaller.toMember key) (hother.toMember key)).mp (h key) path
      · intro h key
        apply (ih hg key (hcaller.toMember key) (hother.toMember key)).mpr
        exact fun path => h (key :: path)
    · have hright : (∀ path, Compatible golden caller other path) ↔ Same caller other := by
        constructor
        · intro h
          rcases h [] with h | h | h | h
          · exact absurd h hfirst
          · exact absurd h hsecond
          · exact h
          · exact absurd h hall
        · exact fun h => compatible_of_same (.inr (.inr h))
      rw [hright]
      exact same_orders_of_replaced hgolden hcaller hother hfirst hsecond hall

end Order

/-- Saving onto the config as loaded writes the caller's. A save onto another one keeps to the
three-way law except at the leaves it overwrites, and two saves of edits of one config can be
swapped where the edits are compatible. -/
theorem save_keeps_both_sides (golden caller other latest : ClimonConfig) :
    (∃ written, toWrite golden caller golden = .ok written ∧ Same written.root caller.root) ∧
    (∃ written, toWrite golden caller latest = .ok written ∧
      ∀ path, ThreeWay golden.root caller.root latest.root written.root path ↔
        ¬ Overwritten golden.root caller.root latest.root path) ∧
    ∃ first second, (toWrite golden caller latest >>= toWrite golden other) = .ok first ∧
      (toWrite golden other latest >>= toWrite golden caller) = .ok second ∧
      (Same first.root second.root ↔
        ∀ path, Compatible golden.root caller.root other.root path) := by
  have hgolden := formed_root golden
  have hcaller := formed_root caller
  have hother := formed_root other
  refine ⟨?_, ?_, ?_⟩
  · obtain ⟨written, hwritten, hroot⟩ := toWrite_eq golden caller golden
    refine ⟨written, hwritten, ?_⟩
    rw [hroot]
    exact same_mergeAt_golden hgolden hcaller
  · obtain ⟨written, hwritten, hroot⟩ := toWrite_eq golden caller latest
    refine ⟨written, hwritten, fun path => ?_⟩
    rw [hroot]
    exact threeWay_iff hgolden hcaller
  · obtain ⟨afterCaller, hafterCaller, hcallerRoot⟩ := toWrite_eq golden caller latest
    obtain ⟨afterOther, hafterOther, hotherRoot⟩ := toWrite_eq golden other latest
    obtain ⟨first, hfirst, hfirstRoot⟩ := toWrite_eq golden other afterCaller
    obtain ⟨second, hsecond, hsecondRoot⟩ := toWrite_eq golden caller afterOther
    refine ⟨first, second, ?_, ?_, ?_⟩
    · rw [hafterCaller]
      exact hfirst
    · rw [hafterOther]
      exact hsecond
    · rw [hfirstRoot, hsecondRoot, hcallerRoot, hotherRoot]
      exact same_orders_iff hgolden hcaller hother

/-! ## A section that two processes add -/

section Added

def remote : Key := encode "remote"

def empty : ClimonConfig := ⟨[], .record (by simp) (by simp)⟩

/-- A `remote` section with one setting. -/
def remoteWith (setting : String) : ClimonConfig where
  props := [(remote, .record [(encode setting, .atom (.bool true))])]
  wellFormed := by
    apply Tree.WellFormed.record
    · simp
    · intro prop hprop
      rw [List.mem_singleton.mp hprop]
      apply Tree.WellFormed.record
      · simp
      · intro prop hprop
        rw [List.mem_singleton.mp hprop]
        exact .atom _

theorem leafAt_empty (path : List Key) : leafAt empty.root path = none := by
  cases path with
  | nil => rfl
  | cons key path =>
    change leaf (valueAt none path) = none
    rw [valueAt_none]
    rfl

theorem path_of_changed {setting : String} {path : List Key}
    (h : Changed empty.root (remoteWith setting).root path) :
    path = [remote, encode setting] := by
  unfold Changed at h
  rw [leafAt_empty] at h
  by_contra hpath
  apply h
  have hlookup (name key : Key) (value : Value) :
      ([(name, value)] : Properties).lookup key = if key = name then some value else none := by
    split
    next heq => rw [heq, List.lookup_cons_self]
    next hne => rw [List.lookup_cons, beq_eq_false_iff_ne.mpr hne, List.lookup_nil]
  suffices hnone : leafAt (remoteWith setting).root path = none by rw [hnone]
  match path with
  | [] => rfl
  | [key] =>
    change leaf (([(remote, _)] : Properties).lookup key) = none
    rw [hlookup]
    split <;> rfl
  | key :: name :: rest =>
    change leaf (valueAt (member (([(remote, _)] : Properties).lookup key) name) rest) = none
    rw [hlookup]
    split
    next hkey =>
      rw [member_record, hlookup]
      split
      next hname =>
        cases rest with
        | nil => exact absurd (by rw [hkey, hname]) hpath
        | cons key rest =>
          rw [valueAt, member_of_not_record rfl, valueAt_none]
          rfl
      next =>
        rw [valueAt_none]
        rfl
    next =>
      rw [member_none, valueAt_none]
      rfl

/-- Each adds one setting to a section that neither had: the second save loses the first one's,
and the order of the two decides which is left. -/
theorem added_section_lost :
    (∃ written,
      toWrite empty (remoteWith "dashboardTunnelEnabled") (remoteWith "keepAlive") = .ok written ∧
      ¬ Changed empty.root (remoteWith "dashboardTunnelEnabled").root [remote, encode "keepAlive"] ∧
      ¬ Same (leafAt written.root [remote, encode "keepAlive"])
        (leafAt (remoteWith "keepAlive").root [remote, encode "keepAlive"])) ∧
    (∀ path, ¬ Changed empty.root (remoteWith "dashboardTunnelEnabled").root path ∨
      ¬ Changed empty.root (remoteWith "keepAlive").root path) ∧
    ∃ first second,
      (toWrite empty (remoteWith "dashboardTunnelEnabled") empty >>=
        toWrite empty (remoteWith "keepAlive")) = .ok first ∧
      (toWrite empty (remoteWith "keepAlive") empty >>=
        toWrite empty (remoteWith "dashboardTunnelEnabled")) = .ok second ∧
      ¬ Same first.root second.root := by
  have honto (caller latest : String) :
      toWrite empty (remoteWith caller) (remoteWith latest) = .ok (remoteWith caller) := by rfl
  have halone (caller : String) :
      toWrite empty (remoteWith caller) empty = .ok (remoteWith caller) := by rfl
  have hlost :
      leafAt (remoteWith "dashboardTunnelEnabled").root [remote, encode "keepAlive"] = none := by
    rfl
  have hadded : leafAt (remoteWith "keepAlive").root [remote, encode "keepAlive"] =
      some (.atom (.bool true)) := by rfl
  refine ⟨⟨_, honto _ _, ?_, ?_⟩, fun path => ?_, remoteWith "keepAlive",
    remoteWith "dashboardTunnelEnabled", ?_, ?_, fun hsame => ?_⟩
  · unfold Changed
    rw [leafAt_empty, hlost]
    exact not_not.mpr (Same.refl none)
  · rw [hlost, hadded]
    intro hsame
    cases same_none_iff.mp hsame.symm
  · by_contra hboth
    push Not at hboth
    have hpath := (path_of_changed hboth.1).symm.trans (path_of_changed hboth.2)
    exact absurd hpath (by decide)
  · rw [halone]
    exact honto _ _
  · rw [halone]
    exact honto _ _
  · have hleaf := hsame.leafAt [remote, encode "keepAlive"]
    rw [hlost, hadded] at hleaf
    cases same_none_iff.mp hleaf

end Added

end Climon.Config.ThreeWayMerge
