import ScatterGather.Proofs.Coordinator.Admission
import ScatterGather.Proofs.Execution.Merged
import ScatterGather.Proofs.Merger.Registry

/-! A coordinator is built with the merger that was registered last under its strategy, and all its
executions merge with that one. -/
namespace ScatterGather

variable {V : Type}

theorem Text.isBlank_eq_false {s : String} :
    Text.isBlank s = false ↔ ∃ ch ∈ s.toList, Text.isSpace ch = false := by
  simp only [isBlank, List.all_eq_false, Bool.not_eq_true]

theorem ShardingConfig.validate_eq_ok {config : ShardingConfig} : config.validate = .ok () ↔
    1 ≤ config.parallelism.toNat ∧ ∃ ch ∈ config.strategy.toList, Text.isSpace ch = false := by
  rw [← Text.isBlank_eq_false]
  have hp : config.parallelism = 0 ↔ config.parallelism.toNat = 0 :=
    UInt64.toNat_inj (b := 0) |>.symm
  by_cases hz : config.parallelism = 0
  · simp [validate, fault?, hz]
  · have hpos : 1 ≤ config.parallelism.toNat := Nat.pos_of_ne_zero fun h => hz (hp.2 h)
    cases hb : Text.isBlank config.strategy <;> simp [validate, fault?, hz, hb, hpos]

namespace Coordinator

open Execution Fleet

variable {parts : CoordinatorParts V} {c : Coordinator V} {config : ShardingConfig} {m : Merger V}
  {g g' : Fleet V}

theorem exists_build_eq_ok (hc : parts.config = some config) (hd : parts.hasDownstream = true)
    (hr : parts.hasRuntime = true) : (∃ c, build parts = .ok c) ↔ config.validate = .ok () ∧
      ∃ mergers m, parts.mergers = some mergers ∧ mergers.get? config.strategy = some m := by
  simp only [build, hc, hd, hr]
  cases hv : config.validate with
  | error e => simp
  | ok u =>
    cases hm : parts.mergers with
    | none => simp
    | some mergers => cases hg : mergers.get? config.strategy <;> simp [hg]

/-- Whatever happens from `g` on, execution `x` has the merger `m`. Outcomes that are merged
results are what `m` makes of results that it was called with. -/
def MergesBy (m : Merger V) (x : Nat) (g : Fleet V) : Prop :=
  ∃ e₀, g.executions[x]? = some e₀ ∧ ∀ moves g' events, g.run moves = some (g', events) →
    ∃ e, g'.executions[x]? = some e ∧ e.merger = m ∧
      (Follows Execution.step Merges e₀ (g.movesOn x moves) →
        ∀ o ∈ deliveries (eventsOf x events), IsMerged o →
          ∃ rs ∈ merges (eventsOf x events), o = sequential m e.query.order rs)

theorem mergesBy_of_start {x : Nat} {e₀ : Execution V} (he : g.executions[x]? = some e₀)
    (hm : mergings e₀.calls = []) : MergesBy e₀.merger x g := by
  refine ⟨e₀, he, ?_⟩
  intro moves g' events hr
  obtain ⟨e, hrun, he'⟩ := own_run hr he
  have ht := Trace.of_run hrun
  have hp := plan_of_trace ht
  refine ⟨e, he', merger_of_plan hp, ?_⟩
  intro hf o ho hmerged
  rw [query_of_plan hp]
  exact exists_merges_of_trace ht hf hm hmerged ho

theorem mergesBy_of_execute {fresh : IdSupply} {id : ExecutionId} {q : Query}
    {override : Option ShardingConfig} (h : c.execute fresh id q override g = .ok g') :
    MergesBy c.merger g.executions.length g' := by
  obtain ⟨subs, rfl⟩ := exists_add_of_execute h
  have he : (g.add (new id q subs (c.windowFor override).toNat c.merger).start true).executions[
      g.executions.length]? = some _ := List.getElem?_concat_length
  exact mergesBy_of_start he rfl

/-- A registry finds the last merger under each strategy, and lists the strategies it finds. With
all its collaborators there, a coordinator is built just if there is a place for sub queries, and
its strategy is not blank and is found. All its executions merge with the merger that is found,
whatever their overrides say. -/
theorem build_resolves_merger :
    (∀ ms : List (Merger V), (MergerRegistry.ofMergers ms).Shows ms) ∧
    ∀ (parts : CoordinatorParts V) config, parts.config = some config →
      parts.hasDownstream = true → parts.hasRuntime = true →
      ((∃ c, build parts = .ok c) ↔ 1 ≤ config.parallelism.toNat ∧
        (∃ ch ∈ config.strategy.toList, Text.isSpace ch = false) ∧
        ∃ mergers m, parts.mergers = some mergers ∧ mergers.get? config.strategy = some m) ∧
      ∀ c mergers m, build parts = .ok c → parts.mergers = some mergers →
        mergers.get? config.strategy = some m → ∀ fresh id q override g g',
          c.execute fresh id q override g = .ok g' → MergesBy m g.executions.length g' := by
  refine ⟨MergerRegistry.shows_ofMergers, fun parts config hc hd hr => ⟨?_, ?_⟩⟩
  · rw [exists_build_eq_ok hc hd hr, ShardingConfig.validate_eq_ok, and_assoc]
  · intro c mergers m hb hm hg fresh id q override g g' hx
    have hbuilt := built_of_build hb
    obtain ⟨mergers', hm', hg'⟩ := hbuilt.merger
    obtain rfl : c.config = config := Option.some.inj (hbuilt.config.symm.trans hc)
    obtain rfl : mergers' = mergers := Option.some.inj (hm'.symm.trans hm)
    obtain rfl : c.merger = m := Option.some.inj (hg'.symm.trans hg)
    exact mergesBy_of_execute hx

def firstResult : Merger Nat := ⟨"pick", fun rs => (rs.head?.map .value).getD .panic⟩

def lastResult : Merger Nat := ⟨"pick", fun rs => (rs.getLast?.map .value).getD .panic⟩

/-- Two mergers are registered under the strategy, and another one between them. -/
def pickingParts : CoordinatorParts Nat where
  config := some ((ShardingConfig.new 1).withStrategy "pick")
  mergers := some (.ofMergers [firstResult, adding.merger, lastResult])
  hasDownstream := true
  splitter := .byMetric
  hasRuntime := true

def pairPicked : Execution Nat :=
  (Execution.new ⟨.ofNat 9⟩ pair (pair.subQueries fun i => ⟨.ofNat i⟩) 1 lastResult).start

def pickedMoves : List (ScatterGather.Move Nat) :=
  pairMoves.take 12 ++ [.combined (.value 6), .halt]

/-- The override names another strategy, one that is registered as well. -/
def summing : ShardingConfig := (ShardingConfig.new 1).withStrategy "sum"

/-- The merger that was registered last does the work. -/
theorem build_resolves_merger_picking : ∃ (c : Coordinator Nat) (g : Fleet Nat)
    (events : List (Nat × Event Nat)),
    build pickingParts = .ok c ∧
      c.execute (fun i => ⟨.ofNat i⟩) ⟨.ofNat 9⟩ pair (some summing) .empty =
        .ok (Fleet.empty.add pairPicked true) ∧
      MergesBy lastResult 0 (Fleet.empty.add pairPicked true) ∧
      (Fleet.empty.add pairPicked true).run (pickedMoves.map (.on 0)) = some (g, events) ∧
      merges (eventsOf 0 events) = [[5, 6]] ∧ deliveries (eventsOf 0 events) = [.ok 6] ∧
      ∃ order, .ok 6 = sequential lastResult order [5, 6] := by
  obtain ⟨hshows, hbuild⟩ := build_resolves_merger (V := Nat)
  have hfound : (MergerRegistry.ofMergers [firstResult, adding.merger, lastResult]).get? "pick" =
      some lastResult :=
    ((hshows _).found _ _).2 ⟨[firstResult, adding.merger], [], rfl, rfl, nofun⟩
  obtain ⟨-, hmerges⟩ := hbuild pickingParts _ rfl rfl rfl
  have hb : build pickingParts =
      .ok ⟨(ShardingConfig.new 1).withStrategy "pick", lastResult, .byMetric⟩ := rfl
  have hm : MergesBy lastResult 0 (Fleet.empty.add pairPicked true) :=
    hmerges _ _ _ hb rfl hfound (fun i => ⟨.ofNat i⟩) ⟨.ofNat 9⟩ pair (some summing) .empty _ rfl
  obtain ⟨⟨g, events⟩, hr⟩ : ∃ t, (Fleet.empty.add pairPicked true).run
    (pickedMoves.map (.on 0)) = some t := ⟨_, rfl⟩
  obtain ⟨hmerged, hdelivered⟩ : merges (eventsOf 0 events) = [[5, 6]] ∧
      deliveries (eventsOf 0 events) = [.ok 6] := by
    cases hr
    exact ⟨rfl, rfl⟩
  refine ⟨_, g, events, hb, rfl, hm, hr, hmerged, hdelivered, ?_⟩
  obtain ⟨e₀, he₀, hmoves⟩ := hm
  obtain rfl : pairPicked = e₀ := Option.some.inj he₀
  obtain ⟨e, -, -, hfollows⟩ := hmoves _ _ _ hr
  have hf : Follows Execution.step Merges pairPicked
      ((Fleet.empty.add pairPicked true).movesOn 0 (pickedMoves.map (.on 0))) := by
    refine ⟨trivial, trivial, trivial, trivial, trivial, trivial, trivial, trivial, trivial,
      trivial, trivial, trivial, ?_, trivial, trivial⟩
    intro rs s hc
    cases hc
    rfl
  obtain ⟨rs, hrs, ho⟩ := hfollows hf (.ok 6) (hdelivered ▸ List.mem_singleton_self _) trivial
  rw [hmerged, List.mem_singleton] at hrs
  exact ⟨_, hrs ▸ ho⟩

end Coordinator
end ScatterGather
