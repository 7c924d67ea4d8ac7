import ScatterGather.Proofs.Query.Members

/-! A query is read back from its text, whatever was left out in writing. -/
namespace ScatterGather

open Json

theorem TimeRange.form_written (t : TimeRange) : Form t.parts t.toJson.reading :=
  .written (.present rfl (.present rfl .nil))

theorem Tags.shown_written (t : Tags) :
    Shown [⟨"tags", Metric.tagsStand t, t = .empty⟩]
      (memberReadings (if t.entries.isEmpty then [] else [("tags", t.toJson)])) := by
  cases hn : t.entries.isEmpty with
  | false => exact .present ⟨t.entries, .refl _, rfl⟩ .nil
  | true => exact .absent (StringMap.eq_empty (List.isEmpty_iff.1 hn)) .nil

theorem Metric.form_written (m : Metric) : Form m.parts m.toJson.reading := by
  obtain ⟨id, metric, aggregator, tags⟩ := m
  have htags := Tags.shown_written tags
  cases aggregator with
  | none => exact .written (.present rfl (.present rfl (.absent rfl htags)))
  | some a => exact .written (.present rfl (.present rfl (.present rfl htags)))

theorem Query.metricsStand_written (ms : List Metric) :
    metricsStand ms (Json.array (ms.map Metric.toJson)).reading := by
  refine ⟨readings (ms.map Metric.toJson), rfl, ?_⟩
  induction ms with
  | nil => exact .nil
  | cons m ms ih => exact .cons (Metric.form_written m) ih

theorem Query.form_written (q : Query) : Form q.parts q.toJson.reading := by
  obtain ⟨id, parent, order, time, metrics⟩ := q
  have hrest : Shown ((⟨id, parent, order, time, metrics⟩ : Query).parts.drop 2) (memberReadings
      [("order", .number order.toNat), ("time", time.toJson),
        ("metrics", .array (metrics.map Metric.toJson))]) :=
    .present rfl (.present (TimeRange.form_written time)
      (.present (metricsStand_written metrics) .nil))
  cases parent with
  | none => exact .written (.present rfl (.absent rfl hrest))
  | some p => exact .written (.present rfl (.present rfl hrest))

theorem Query.decode_reading (q : Query) (fresh : QueryId) :
    (record fresh).decode q.toJson.reading = .ok q :=
  (reads q fresh).decode_form (form_written q) (skip_reading _)

theorem Metric.keys_toJson (m : Metric) : m.toJson.keys = ["id", "metric"] ++
    (m.aggregator.map fun _ => "aggregator").toList ++
      (if m.tags.isEmpty then [] else ["tags"]) := by
  cases ha : m.aggregator <;> cases hn : m.tags.entries.isEmpty <;>
    simp [Metric.toJson, Json.keys, StringMap.isEmpty, ha, hn]

theorem Query.keys_toJson (q : Query) : q.toJson.keys =
    ["id"] ++ (q.parent.map fun _ => "parent").toList ++ ["order", "time", "metrics"] := by
  cases hp : q.parent <;> simp [Query.toJson, Json.keys, hp]

/-- Parents, aggregators and tags are written only if there are any. All the same a query is what
its text is read as, on one line as on many; the identifier at hand is never taken. -/
theorem Query.ofText_written (q : Query) (fresh : QueryId) :
    q.toJson.keys =
        ["id"] ++ (q.parent.map fun _ => "parent").toList ++ ["order", "time", "metrics"] ∧
      (∀ m : Metric, m.toJson.keys = ["id", "metric"] ++
        (m.aggregator.map fun _ => "aggregator").toList ++
        (if m.tags.isEmpty then [] else ["tags"])) ∧
      ofText fresh q.toJson.line = .ok q ∧ ofText fresh q.toJson.pretty = .ok q := by
  refine ⟨keys_toJson q, Metric.keys_toJson, ?_, ?_⟩
  · rw [ofText, decode_line, decode_reading]
  · rw [ofText, decode_pretty, decode_reading]

end ScatterGather
