import Mathlib.Data.List.Forall2
import ScatterGather.Proofs.Merger.Batches

/-! Merging in two stages: the shards are cut into groups, each group is merged, and then what the
groups came to is merged. The built-in mergers make the same of all shards at once. -/
namespace ScatterGather.Merger

section Stages

variable {V : Type} {m : Merger V} {groups : List (List V)} {parts : List V} {v : V}

/-- The parts are what the merger makes of the groups, each in the place of its group. -/
def Parts (m : Merger V) (groups : List (List V)) (parts : List V) : Prop :=
  List.Forall₂ (fun g p => m.merge g = .value p) groups parts

theorem exists_parts (h : ∀ g ∈ groups, ∃ p, m.merge g = .value p) :
    ∃ parts, Parts m groups parts := by
  induction groups with
  | nil => exact ⟨[], .nil⟩
  | cons g groups ih =>
    obtain ⟨⟨p, hp⟩, hrest⟩ := List.forall_mem_cons.1 h
    obtain ⟨parts, hparts⟩ := ih hrest
    exact ⟨p :: parts, .cons hp hparts⟩

/-- Two stages come to the same as one if no group can fail when all shards together are merged, and
if the parts merge to what all shards do. -/
theorem value_iff_parts
    (hgroups : ∀ v, m.merge groups.flatten = .value v → ∀ g ∈ groups, ∃ p, m.merge g = .value p)
    (hparts : ∀ parts, Parts m groups parts → ∀ v,
      m.merge groups.flatten = .value v ↔ m.merge parts = .value v) :
    m.merge groups.flatten = .value v ↔
      ∃ parts, Parts m groups parts ∧ m.merge parts = .value v := by
  constructor
  · intro hv
    obtain ⟨parts, hp⟩ := exists_parts (hgroups v hv)
    exact ⟨parts, hp, (hparts parts hp v).1 hv⟩
  · rintro ⟨parts, hp, hv⟩
    exact (hparts parts hp v).2 hv

end Stages

variable {T C : Type} {groups : List (List (Batches T C))} {parts : List (Batches T C)}

theorem better_assoc (s t u : Batches T C) :
    better (better s t) u = better s (better t u) := by
  simp only [better]
  split_ifs <;> first | rfl | omega

instance : Std.Associative (better (T := T) (C := C)) := ⟨better_assoc⟩

theorem foldl_larger_cons (best : Option (Batches T C)) (s : Batches T C)
    (shards : List (Batches T C)) :
    (s :: shards).foldl larger best = larger best (shards.foldl better s) := by
  cases best with
  | none => exact foldl_larger s
  | some t => rw [foldl_larger, List.foldl_cons, List.foldl_assoc, larger_some]

/-- A group does to the best shard before it what its own largest shard does. -/
theorem foldl_larger_parts (hne : ∀ g ∈ groups, g ≠ []) (h : Parts largest groups parts)
    (best : Option (Batches T C)) :
    groups.flatten.foldl larger best = parts.foldl larger best := by
  induction h generalizing best with
  | nil => rfl
  | @cons g p groups parts hp _ ih =>
    obtain ⟨hg, hgroups⟩ := List.forall_mem_cons.1 hne
    obtain ⟨s, g, rfl⟩ := List.exists_cons_of_ne_nil hg
    obtain rfl : g.foldl better s = p := Merged.value.inj ((largest_cons s).symm.trans hp)
    rw [List.flatten_cons, List.foldl_append, foldl_larger_cons, ih hgroups, List.foldl_cons]

theorem largest_parts (hne : ∀ g ∈ groups, g ≠ []) (h : Parts largest groups parts) :
    largest.merge groups.flatten = largest.merge parts := by
  change Merged.value ((groups.flatten.foldl larger none).getD []) = _
  rw [foldl_larger_parts hne h none]
  rfl

theorem concat_parts (h : Parts concat groups parts) :
    concat.merge groups.flatten = concat.merge parts := by
  have hp : groups.flatten.flatten = parts.flatten := by
    induction h with
    | nil => rfl
    | cons hp _ ih =>
      rw [List.flatten_cons, List.flatten_append, ih, Merged.value.inj hp, List.flatten_cons]
  exact congrArg Merged.value hp

section Coalesce

variable [DecidableEq T] {v : Batches T C}

theorem repacks_parts (h : Parts coalesce groups parts) :
    Repacks groups.flatten.flatten parts.flatten := by
  induction h with
  | nil => exact ⟨.rfl, fun _ => .rfl, rfl⟩
  | cons hp _ ih =>
    rw [List.flatten_cons, List.flatten_append, List.flatten_cons]
    exact (repacks_of_coalesced (coalesce_eq_value_iff.1 hp)).1.append ih

theorem coalesce_parts (h : Parts coalesce groups parts) :
    coalesce.merge groups.flatten = .value v ↔ coalesce.merge parts = .value v := by
  rw [coalesce_eq_value_iff, coalesce_eq_value_iff, coalesced_eq_ok_iff, coalesced_eq_ok_iff]
  have hpack := repacks_parts h
  exact and_congr_left fun _ => ⟨hpack.symm.trans, hpack.trans⟩

/-- Batches that coalesce have one schema, and so have those of each group. -/
theorem exists_coalesce (h : coalesce.merge groups.flatten = .value v) :
    ∀ g ∈ groups, ∃ p, coalesce.merge g = .value p := by
  intro g hg
  obtain ⟨hpack, hlen⟩ := repacks_of_coalesced (coalesce_eq_value_iff.1 h)
  obtain ⟨schema, hs⟩ := hpack.ofOneSchema_iff.2 (ofOneSchema_of_length_le hlen)
  have hone : OfOneSchema g.flatten := by
    refine ⟨schema, fun b hb => hs b ?_⟩
    obtain ⟨s, hs, hb⟩ := List.mem_flatten.1 hb
    exact List.mem_flatten_of_mem (List.mem_flatten_of_mem hg hs) hb
  obtain ⟨p, hp⟩ := exists_coalesced hone
  exact ⟨p, coalesce_eq_value_iff.2 hp⟩

/-- However the shards are cut into groups of at least one shard, each built-in merger makes the
same of all shards as of what it makes of the groups, and fails on the one if it fails on the
other. -/
theorem merge_by_groups {m : Merger (Batches T C)} (hm : m ∈ [largest, concat, coalesce])
    {shards : List (Batches T C)} (hcut : groups.flatten = shards) (hne : ∀ g ∈ groups, g ≠ [])
    (v : Batches T C) : m.merge shards = .value v ↔
      ∃ parts, Parts m groups parts ∧ m.merge parts = .value v := by
  subst hcut
  simp only [List.mem_cons, List.not_mem_nil, or_false] at hm
  apply value_iff_parts
  · rcases hm with rfl | rfl | rfl
    · exact fun _ _ g _ => ⟨_, rfl⟩
    · exact fun _ _ g _ => ⟨g.flatten, rfl⟩
    · exact fun _ => exists_coalesce
  · intro parts h v
    rcases hm with rfl | rfl | rfl
    · rw [largest_parts hne h]
    · rw [concat_parts h]
    · exact coalesce_parts h

/-- Shards in groups. The second group has no batch, and the last one has as many rows as the
first. -/
def thirds : List (List Batches) := [[[morning]], [[], []], [[evening], [evening, evening]]]

theorem merge_by_groups_thirds :
    (∀ g ∈ thirds, g ≠ []) ∧
      (∃ v parts, coalesce.merge thirds.flatten = .value v ∧ Parts coalesce thirds parts ∧
        coalesce.merge parts = .value v) ∧
      ∃ parts, Parts largest thirds parts ∧ largest.merge parts = .value [morning] := by
  have hne : ∀ g ∈ thirds, g ≠ [] := by simp [thirds]
  have hone : OfOneSchema thirds.flatten.flatten :=
    ⟨notes, by simp [thirds, morning, evening]⟩
  obtain ⟨v, hv⟩ := exists_coalesced hone
  have hv := coalesce_eq_value_iff.2 hv
  obtain ⟨parts, hparts, hmerge⟩ := (merge_by_groups (by simp) rfl hne v).1 hv
  exact ⟨hne, ⟨v, parts, hv, hparts, hmerge⟩,
    (merge_by_groups (m := largest) (by simp) rfl hne [morning]).1 rfl⟩

end Coalesce

end ScatterGather.Merger
