import Mathlib.Data.List.Induction
import ScatterGather.Merger
import ScatterGather.Proofs.StringMap
import ScatterGather.Proofs.Text.Bytes

/-! A registry finds, for each strategy, the merger that was registered last under it. -/
namespace ScatterGather.MergerRegistry

variable {V : Type} {ms : List (Merger V)} {m m' : Merger V} {r : MergerRegistry V} {key : String}

/-- Of the registrations `ms`, the last one under `key` is that of `m`. -/
def LastUnder (key : String) (ms : List (Merger V)) (m : Merger V) : Prop :=
  ∃ before after, ms = before ++ m :: after ∧ m.strategy = key ∧ ∀ m' ∈ after, m'.strategy ≠ key

theorem not_lastUnder_nil : ¬ LastUnder key [] m := by
  rintro ⟨before, after, h, -⟩
  exact List.append_ne_nil_of_right_ne_nil before (List.cons_ne_nil m after) h.symm

theorem lastUnder_snoc : LastUnder key (ms ++ [m]) m' ↔
    m.strategy = key ∧ m = m' ∨ m.strategy ≠ key ∧ LastUnder key ms m' := by
  constructor
  · rintro ⟨before, after, h, hm, hn⟩
    rcases List.eq_nil_or_concat after with rfl | ⟨after, last, rfl⟩
    · obtain ⟨-, hx⟩ := List.append_inj' h rfl
      obtain rfl := List.head_eq_of_cons_eq hx
      exact .inl ⟨hm, rfl⟩
    · rw [List.concat_eq_append] at h hn
      rw [← List.cons_append, ← List.append_assoc] at h
      obtain ⟨rfl, hx⟩ := List.append_inj' h rfl
      obtain rfl := List.head_eq_of_cons_eq hx
      exact .inr ⟨hn m (by simp), before, after, rfl, hm, fun m' hm' => hn m' (by simp [hm'])⟩
  · rintro (⟨hm, rfl⟩ | ⟨hm, before, after, rfl, hm', hn⟩)
    · exact ⟨ms, [], rfl, hm, nofun⟩
    · refine ⟨before, after ++ [m], by simp, hm', ?_⟩
      intro m'' h
      rcases List.mem_append.1 h with h | h
      · exact hn m'' h
      · rwa [List.mem_singleton.1 h]

theorem exists_lastUnder : (∃ m, LastUnder key ms m) ↔ ∃ m ∈ ms, m.strategy = key := by
  constructor
  · rintro ⟨m, before, after, rfl, hm, -⟩
    exact ⟨m, by simp, hm⟩
  · rintro ⟨m, hm, hk⟩
    induction ms using List.reverseRecOn with
    | nil => cases hm
    | append_singleton ms last ih =>
      by_cases hl : last.strategy = key
      · exact ⟨last, lastUnder_snoc.2 (.inl ⟨hl, rfl⟩)⟩
      · rcases List.mem_append.1 hm with hm | hm
        · obtain ⟨m', h⟩ := ih hm
          exact ⟨m', lastUnder_snoc.2 (.inr ⟨hl, h⟩)⟩
        · exact (hl (List.mem_singleton.1 hm ▸ hk)).elim

/-- The registry finds what was registered last, under every key. -/
def Finds (ms : List (Merger V)) (r : MergerRegistry V) : Prop :=
  ∀ key m, r.get? key = some m ↔ LastUnder key ms m

theorem finds_empty : Finds ([] : List (Merger V)) .empty := by
  intro key m
  rw [StringMap.get?_empty]
  exact iff_of_false nofun not_lastUnder_nil

theorem finds_register (h : Finds ms r) (m : Merger V) : Finds (ms ++ [m]) (r.register m).1 := by
  intro key m'
  rw [lastUnder_snoc, ← h key, register, StringMap.get?_insert]
  by_cases hk : key = m.strategy
  · simp [hk]
  · simp [hk, Ne.symm hk]

theorem ofMergers_snoc (ms : List (Merger V)) (m : Merger V) :
    ofMergers (ms ++ [m]) = ((ofMergers ms).register m).1 := by
  rw [ofMergers, List.foldl_append]
  rfl

theorem finds_ofMergers (ms : List (Merger V)) : Finds ms (ofMergers ms) := by
  induction ms using List.reverseRecOn with
  | nil => exact finds_empty
  | append_singleton ms m ih => exact ofMergers_snoc ms m ▸ finds_register ih m

theorem strategy_of_get? (h : (ofMergers ms).get? key = some m) : m.strategy = key := by
  obtain ⟨_, _, _, hm, _⟩ := (finds_ofMergers ms key m).1 h
  exact hm

theorem mem_strategies : key ∈ r.strategies ↔ ∃ m, r.get? key = some m := StringMap.mem_keys

/-- What can be seen of a registry after the registrations `ms`. -/
structure Shows (ms : List (Merger V)) (r : MergerRegistry V) : Prop where
  found : ∀ key m, r.get? key = some m ↔ LastUnder key ms m
  missing : ∀ key, r.get? key = none ↔ ∀ m ∈ ms, m.strategy ≠ key
  strategy : ∀ key m, r.get? key = some m → m.strategy = key
  /-- A registration comes back with the merger that it displaces. -/
  displaced : ∀ m m', (r.register m).2 = some m' ↔ LastUnder m.strategy ms m'
  registered : ∀ m, (r.register m).1 = ofMergers (ms ++ [m])
  sorted : r.strategies.Pairwise fun s t => Text.bytes s < Text.bytes t
  listed : ∀ key, key ∈ r.strategies ↔ ∃ m, r.get? key = some m
  counted : r.strategies.length = r.size

theorem shows_ofMergers (ms : List (Merger V)) : Shows ms (ofMergers ms) where
  found := finds_ofMergers ms
  missing key := by
    rw [Option.eq_none_iff_forall_ne_some]
    simp only [ne_eq, finds_ofMergers ms key]
    rw [← not_exists, exists_lastUnder]
    simp
  strategy _ _ := strategy_of_get?
  displaced m m' := finds_ofMergers ms m.strategy m'
  registered m := (ofMergers_snoc ms m).symm
  sorted := (StringMap.pairwise_keys _).imp Text.bytes_lt_iff.2
  listed _ := mem_strategies
  counted := StringMap.length_keys _

end ScatterGather.MergerRegistry
