import ScatterGather.Proofs.Json.Members
import ScatterGather.Proofs.StringMap
import ScatterGather.Proofs.Uuid
import ScatterGather.Query.Codec

/-! The forms of queries and of what they are made of: what stands for each field, what can be left
out, and what has to be there. -/
namespace ScatterGather

open Json Record

theorem uuid_reading (u : Uuid) : Reading.uuid u.toJson.reading = .ok u := by
  rw [Uuid.toJson, reading, Reading.uuid, Uuid.hyphenated, String.toList_ofList,
    Uuid.ofChars_hyphenated]

theorem QueryId.decoder_reading (id : QueryId) : decoder id.toJson.reading = .ok id := by
  rw [decoder, toJson, uuid_reading]
  rfl

namespace TimeRange

def parts (t : TimeRange) : List Part := [
  .value "startMs" (.number t.start.toInt) False,
  .value "endMs" (.number t.stop.toInt) False]

def needs : List Need := [.value "startMs" true, .value "endMs" true]

def draft (t : TimeRange) (seen : List String) : Draft :=
  ⟨filled "startMs" t.start seen, filled "endMs" t.stop seen⟩

theorem reads (t : TimeRange) : record.Reads t.parts t.draft t where
  fields := by
    refine .cons ?_ (.cons ?_ .nil)
    · refine fills_value False.elim (Reading.instant_number t.start) fun seen => ?_
      simp [draft, filled]
    · refine fills_value False.elim (Reading.instant_number t.stop) fun seen => ?_
      simp [draft, filled]
  distinct := by
    change ["startMs", "endMs"].Nodup
    decide
  empty := rfl
  finish seen h := by
    simp only [parts, Part.value, List.forall_mem_cons] at h
    obtain ⟨hstart, hstop, -⟩ := h
    simp only [record, draft, required_filled hstart, required_filled hstop]
    rfl

theorem requires_start : Requires record "startMs" := by
  refine ⟨fun d => d.start = none, rfl, ?_, fun d hd => ⟨.data (.missing "startMs"), ?_⟩⟩
  · simp only [record, List.forall_mem_cons]
    exact ⟨.inl rfl, .inr (keeps_of fun _ _ h => h), nofun⟩
  · simp only [record, hd, required]
    rfl

theorem requires_stop : Requires record "endMs" := by
  refine ⟨fun d => d.stop = none, rfl, ?_, fun d hd => ?_⟩
  · simp only [record, List.forall_mem_cons]
    exact ⟨.inr (keeps_of fun _ _ h => h), .inl rfl, nofun⟩
  · simp only [record, hd, required]
    cases d.start with
    | none => exact ⟨_, rfl⟩
    | some _ => exact ⟨_, rfl⟩

theorem asks : record.Asks needs where
  fields := .cons (refuses_value) (.cons (refuses_value) .nil)
  distinct := by decide
  required := by
    simp only [needs, List.forall_mem_cons]
    exact ⟨fun _ => requires_start, fun _ => requires_stop, nofun⟩

end TimeRange

namespace Metric

/-- Tags stand in any order, each of them once. -/
def tagsStand (t : Tags) (r : Reading) : Prop :=
  ∃ es : List (String × String), es.Perm t.entries ∧
    r = (Json.object (es.map fun e => (e.1, .string e.2))).reading

def parts (m : Metric) : List Part := [
  .value "id" (.string m.id) False,
  .value "metric" (.string m.metric) False,
  .value "aggregator" ((m.aggregator.map Json.string).getD .null) (m.aggregator = none),
  ⟨"tags", tagsStand m.tags, m.tags = .empty⟩]

def needs : List Need :=
  [.value "id" true, .value "metric" true, .value "aggregator" false, .value "tags" false]

def draft (m : Metric) (seen : List String) : Draft :=
  ⟨filled "id" m.id seen, filled "metric" m.metric seen, filled "aggregator" m.aggregator seen,
    filled "tags" m.tags seen⟩

theorem decoder_tagsStand {t : Tags} {r : Reading} (h : tagsStand t r) :
    Tags.decoder r = .ok t := by
  obtain ⟨es, hes, rfl⟩ := h
  rw [Tags.decoder, Reading.entries_object Reading.text_string, Except.map,
    StringMap.ofList_perm hes]

theorem reads (m : Metric) : record.Reads m.parts m.draft m where
  fields := by
    refine .cons ?_ (.cons ?_ (.cons ?_ (.cons ?_ .nil)))
    · refine fills_value False.elim (Reading.text_string m.id) fun seen => ?_
      simp [draft, filled]
    · refine fills_value False.elim (Reading.text_string m.metric) fun seen => ?_
      simp [draft, filled]
    · refine fills_value (fun _ => rfl) (Reading.optional_of Reading.text_string _) fun seen => ?_
      simp [draft, filled]
    · refine fills_of (fun _ => rfl) (fun r _ hr => decoder_tagsStand hr) fun seen => ?_
      simp [draft, filled]
  distinct := by
    change ["id", "metric", "aggregator", "tags"].Nodup
    decide
  empty := rfl
  finish seen h := by
    simp only [parts, Part.value, List.forall_mem_cons] at h
    obtain ⟨hid, hmetric, haggregator, htags, -⟩ := h
    simp only [record, draft, required_filled hid, required_filled hmetric,
      filled_getD haggregator, filled_getD htags]
    rfl

theorem requires_id : Requires record "id" := by
  refine ⟨fun d => d.id = none, rfl, ?_, fun d hd => ⟨.data (.missing "id"), ?_⟩⟩
  · simp only [record, List.forall_mem_cons]
    exact ⟨.inl rfl, .inr (keeps_of fun _ _ h => h), .inr (keeps_of fun _ _ h => h),
      .inr (keeps_of fun _ _ h => h), nofun⟩
  · simp only [record, hd, required]
    rfl

theorem requires_metric : Requires record "metric" := by
  refine ⟨fun d => d.metric = none, rfl, ?_, fun d hd => ?_⟩
  · simp only [record, List.forall_mem_cons]
    exact ⟨.inr (keeps_of fun _ _ h => h), .inl rfl, .inr (keeps_of fun _ _ h => h),
      .inr (keeps_of fun _ _ h => h), nofun⟩
  · simp only [record, hd, required]
    cases d.id with
    | none => exact ⟨_, rfl⟩
    | some _ => exact ⟨_, rfl⟩

theorem asks : record.Asks needs where
  fields := .cons (refuses_value) (.cons (refuses_value) (.cons (refuses_value)
    (.cons (refuses_value) .nil)))
  distinct := by decide
  required := by
    simp only [needs, List.forall_mem_cons]
    exact ⟨fun _ => requires_id, fun _ => requires_metric, nofun, nofun, nofun⟩

end Metric

namespace Query

/-- A list of metrics, each of them in one of its forms. -/
def metricsStand (ms : List Metric) (r : Reading) : Prop :=
  ∃ items, r = .array items .closed ∧ List.Forall₂ (fun r m => Form m.parts r) items ms

/-- The identifier is always there: one that is not there is made anew. -/
def parts (q : Query) : List Part := [
  .value "id" q.id.toJson False,
  .value "parent" ((q.parent.map QueryId.toJson).getD .null) (q.parent = none),
  .value "order" (.number q.order.toNat) (q.order = 0),
  ⟨"time", Form q.time.parts, False⟩,
  ⟨"metrics", metricsStand q.metrics, q.metrics = []⟩]

/-- In a list of metrics there is one in which something is missing. -/
def metricLacks (r : Reading) : Prop :=
  ∃ items e, r = .array items e ∧ ∃ m ∈ items, Incomplete Metric.needs m

def needs : List Need := [.value "id" false, .value "parent" false, .value "order" false,
  ⟨"time", true, Incomplete TimeRange.needs⟩, ⟨"metrics", false, metricLacks⟩]

def draft (q : Query) (seen : List String) : Draft :=
  ⟨filled "id" q.id seen, filled "parent" q.parent seen, filled "order" q.order seen,
    filled "time" q.time seen, filled "metrics" q.metrics seen⟩

theorem list_metricsStand {ms : List Metric} {r : Reading} (hskip : r.skip = .ok ())
    (h : metricsStand ms r) : Reading.list Metric.record.decode r = .ok ms := by
  obtain ⟨items, rfl, hitems⟩ := h
  replace hskip := Reading.skip_of_mem_items hskip
  refine Reading.list_items ?_
  induction hitems with
  | nil => exact .nil
  | @cons r m _ _ hm _ ih =>
    obtain ⟨hr, hrs⟩ := List.forall_mem_cons.1 hskip
    exact .cons ((Metric.reads m).decode_form hm hr) (ih hrs)

theorem list_metricLacks {r : Reading} (h : metricLacks r) :
    ∃ e, Reading.list Metric.record.decode r = .error e := by
  obtain ⟨items, _, rfl, m, hm, hlacks⟩ := h
  obtain ⟨e, he⟩ := Metric.asks.decode_incomplete hlacks
  exact Reading.list_error hm he

theorem reads (q : Query) (fresh : QueryId) : (record fresh).Reads q.parts q.draft q where
  fields := by
    refine .cons ?_ (.cons ?_ (.cons ?_ (.cons ?_ (.cons ?_ .nil))))
    · refine fills_value (fun _ => rfl) (QueryId.decoder_reading q.id) fun seen => ?_
      simp [draft, filled]
    · refine fills_value (fun _ => rfl) (Reading.optional_of QueryId.decoder_reading q.parent)
        fun seen => ?_
      simp [draft, filled]
    · refine fills_value (fun _ => rfl) (Reading.ordinal_number q.order) fun seen => ?_
      simp [draft, filled]
    · refine fills_of False.elim (fun r hskip hr => (TimeRange.reads q.time).decode_form hr hskip)
        fun seen => ?_
      simp [draft, filled]
    · refine fills_of (fun _ => rfl) (fun r hskip hr => list_metricsStand hskip hr) fun seen => ?_
      simp [draft, filled]
  distinct := by
    change ["id", "parent", "order", "time", "metrics"].Nodup
    decide
  empty := rfl
  finish seen h := by
    simp only [parts, Part.value, List.forall_mem_cons] at h
    obtain ⟨hid, hparent, horder, htime, hmetrics, -⟩ := h
    have hid : (filled "id" q.id seen).getD fresh = q.id :=
      filled_getD (.inl (hid.resolve_right not_false))
    simp only [record, draft, required_filled htime, hid, filled_getD hparent, filled_getD horder,
      filled_getD hmetrics]
    rfl

theorem requires_time (fresh : QueryId) : Requires (record fresh) "time" := by
  refine ⟨fun d => d.time = none, rfl, ?_, fun d hd => ⟨.data (.missing "time"), ?_⟩⟩
  · simp only [record, List.forall_mem_cons]
    exact ⟨.inr (keeps_of fun _ _ h => h), .inr (keeps_of fun _ _ h => h),
      .inr (keeps_of fun _ _ h => h), .inl rfl, .inr (keeps_of fun _ _ h => h), nofun⟩
  · simp only [record, hd, required]
    rfl

theorem asks (fresh : QueryId) : (record fresh).Asks needs where
  fields := .cons (refuses_value) (.cons (refuses_value) (.cons (refuses_value)
    (.cons (refuses_of fun _ => TimeRange.asks.decode_incomplete)
      (.cons (refuses_of fun _ => list_metricLacks) .nil))))
  distinct := by
    change ["id", "parent", "order", "time", "metrics"].Nodup
    decide
  required := by
    simp only [needs, List.forall_mem_cons]
    exact ⟨nofun, nofun, nofun, fun _ => requires_time fresh, nofun, nofun⟩

end Query
end ScatterGather
