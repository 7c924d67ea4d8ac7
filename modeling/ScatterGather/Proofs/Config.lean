import ScatterGather.Config
import ScatterGather.Proofs.Json.Members

/-! The forms of a sharding configuration, among them the one that is written. -/
namespace ScatterGather

open Json Record

namespace ShardingConfig

def parts (c : ShardingConfig) : List Part := [
  .value "executorId" ((c.executorId.map Json.string).getD .null) (c.executorId = none),
  .value "executorType" (.string c.executorType) (c.executorType = defaultType),
  .value "parallelExecutors" (.number c.parallelism.toNat) False,
  .value "mergeStrategy" (.string c.strategy) (c.strategy = defaultStrategy)]

def needs : List Need := [.value "executorId" false, .value "executorType" false,
  .value "parallelExecutors" true, .value "mergeStrategy" false]

def draft (c : ShardingConfig) (seen : List String) : Draft :=
  ⟨filled "executorId" c.executorId seen, filled "executorType" c.executorType seen,
    filled "parallelExecutors" c.parallelism seen, filled "mergeStrategy" c.strategy seen⟩

theorem reads (c : ShardingConfig) : record.Reads c.parts c.draft c where
  fields := by
    refine .cons ?_ (.cons ?_ (.cons ?_ (.cons ?_ .nil)))
    · refine fills_value (fun _ => rfl) (Reading.optional_of Reading.text_string _) fun seen => ?_
      simp [draft, filled]
    · refine fills_value (fun _ => rfl) (Reading.text_string c.executorType) fun seen => ?_
      simp [draft, filled]
    · refine fills_value False.elim (Reading.word_number c.parallelism) fun seen => ?_
      simp [draft, filled]
    · refine fills_value (fun _ => rfl) (Reading.text_string c.strategy) fun seen => ?_
      simp [draft, filled]
  distinct := by
    change ["executorId", "executorType", "parallelExecutors", "mergeStrategy"].Nodup
    decide
  empty := rfl
  finish seen h := by
    simp only [parts, Part.value, List.forall_mem_cons] at h
    obtain ⟨hid, htype, hparallelism, hstrategy, -⟩ := h
    simp only [record, draft, required_filled hparallelism, filled_getD hid, filled_getD htype,
      filled_getD hstrategy]
    rfl

theorem requires_parallelism : Requires record "parallelExecutors" := by
  refine ⟨fun d => d.parallelism = none, rfl, ?_, fun d hd =>
    ⟨.data (.missing "parallelExecutors"), ?_⟩⟩
  · simp only [record, List.forall_mem_cons]
    exact ⟨.inr (keeps_of fun _ _ h => h), .inr (keeps_of fun _ _ h => h), .inl rfl,
      .inr (keeps_of fun _ _ h => h), nofun⟩
  · simp only [record, hd, required]
    rfl

theorem asks : record.Asks needs where
  fields := .cons (refuses_value) (.cons (refuses_value) (.cons (refuses_value)
    (.cons (refuses_value) .nil)))
  distinct := by decide
  required := by
    simp only [needs, List.forall_mem_cons]
    exact ⟨nofun, nofun, fun _ => requires_parallelism, nofun, nofun⟩

/-- An identifier is written only if there is one. -/
theorem keys_toJson (c : ShardingConfig) : c.toJson.keys =
    (c.executorId.map fun _ => "executorId").toList ++
      ["executorType", "parallelExecutors", "mergeStrategy"] := by
  obtain ⟨id, _, _, _⟩ := c
  cases id <;> rfl

theorem form_written (c : ShardingConfig) : Form c.parts c.toJson.reading := by
  obtain ⟨id, type, parallelism, strategy⟩ := c
  have hrest : Shown ((⟨id, type, parallelism, strategy⟩ : ShardingConfig).parts.drop 1)
      (memberReadings [("executorType", .string type),
        ("parallelExecutors", .number parallelism.toNat), ("mergeStrategy", .string strategy)]) :=
    .present rfl (.present rfl (.present rfl .nil))
  cases id with
  | none => exact .written (.absent rfl hrest)
  | some s => exact .written (.present rfl hrest)

theorem decode_reading (c : ShardingConfig) : record.decode c.toJson.reading = .ok c :=
  (reads c).decode_form (form_written c) (skip_reading _)

theorem ofText_text (c : ShardingConfig) : ofText c.text = .ok c := by
  rw [ofText, text, decode_pretty, decode_reading]
  rfl

end ShardingConfig

theorem FileContent.text_toUTF8 (s : String) : FileContent.text (.ok s.toUTF8) = .ok s := by
  have h : String.fromUTF8? s.toUTF8 = some s := dif_pos s.isValidUTF8
  rw [FileContent.text, h]

end ScatterGather
