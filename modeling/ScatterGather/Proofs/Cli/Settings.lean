import ScatterGather.Cli.Session
import ScatterGather.Proofs.Config

/-! The forms of the settings, among them the one that is saved. -/
namespace ScatterGather.Cli

open Json Record

namespace Settings

def parts (s : Settings) : List Part := [
  ⟨"sharding", Form s.sharding.parts, s.sharding = default.sharding⟩,
  .value "latencyMs" (.number s.latency.toNat) (s.latency = default.latency),
  .value "points" (.number s.points.toNat) (s.points = default.points)]

def needs : List Need := [⟨"sharding", false, Incomplete ShardingConfig.needs⟩,
  .value "latencyMs" false, .value "points" false]

def draft (s : Settings) (seen : List String) : Draft :=
  ⟨filled "sharding" s.sharding seen, filled "latencyMs" s.latency seen,
    filled "points" s.points seen⟩

theorem reads (s : Settings) : record.Reads s.parts s.draft s where
  fields := by
    refine .cons ?_ (.cons ?_ (.cons ?_ .nil))
    · refine fills_of (fun _ => rfl) (fun r hskip hr => s.sharding.reads.decode_form hr hskip)
        fun seen => ?_
      simp [draft, filled]
    · refine fills_value (fun _ => rfl) (Reading.milliseconds_number s.latency) fun seen => ?_
      simp [draft, filled]
    · refine fills_value (fun _ => rfl) (Reading.word_number s.points) fun seen => ?_
      simp [draft, filled]
  distinct := by
    change ["sharding", "latencyMs", "points"].Nodup
    decide
  empty := rfl
  finish seen h := by
    simp only [parts, Part.value, List.forall_mem_cons] at h
    obtain ⟨hsharding, hlatency, hpoints, -⟩ := h
    simp only [record, draft, filled_getD hsharding, filled_getD hlatency, filled_getD hpoints]

/-- Every setting has a default, but a sharding configuration has to be whole. -/
theorem asks : record.Asks needs where
  fields := .cons (refuses_of fun _ => ShardingConfig.asks.decode_incomplete)
    (.cons (refuses_value) (.cons (refuses_value) .nil))
  distinct := by
    change ["sharding", "latencyMs", "points"].Nodup
    decide
  required := by
    simp only [needs, List.forall_mem_cons]
    exact ⟨nofun, nofun, nofun, nofun⟩

theorem form_written (s : Settings) : Form s.parts s.toJson.reading :=
  .written (.present s.sharding.form_written (.present rfl (.present rfl .nil)))

theorem decode_reading (s : Settings) : record.decode s.toJson.reading = .ok s :=
  (reads s).decode_form (form_written s) (skip_reading _)

theorem ofFile_text (s : Settings) : ofFile (.ok s.text.toUTF8) = .ok s := by
  rw [ofFile, FileContent.text_toUTF8]
  simp only [text, decode_pretty, decode_reading]
  rfl

/-- A configuration is read back from its text. So are settings from the text that is saved; each
setting stands in it, so no default takes the place of one. -/
theorem ofFile_saved :
    (∀ c : ShardingConfig, ShardingConfig.ofText c.text = .ok c ∧
      ShardingConfig.ofFile (.ok c.text.toUTF8) = .ok c ∧
      c.toJson.keys = (c.executorId.map fun _ => "executorId").toList ++
        ["executorType", "parallelExecutors", "mergeStrategy"]) ∧
      ∀ s : Settings, s.toJson.keys = ["sharding", "latencyMs", "points"] ∧
        ∀ path, ∃ content next, saveTo s path = .save path content next ∧
          ofFile (.ok content.toUTF8) = .ok s := by
  refine ⟨fun c => ⟨c.ofText_text, ?_, c.keys_toJson⟩, fun s => ⟨rfl, fun path => ?_⟩⟩
  · rw [ShardingConfig.ofFile, FileContent.text_toUTF8]
    exact c.ofText_text
  · exact ⟨s.text, _, rfl, ofFile_text s⟩

end Settings
end ScatterGather.Cli
