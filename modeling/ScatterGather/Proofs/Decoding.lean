import ScatterGather.Proofs.Cli.Settings
import ScatterGather.Proofs.Query.Members

/-! What the decoders of the library make of a JSON text is settled by the members they know. -/
namespace ScatterGather

open Json Cli Grammar

theorem Cli.Settings.readsByMembers :
    ReadsByMembers (fun s => Settings.ofFile (.ok s.toUTF8)) Settings.parts Settings.needs := by
  have h := (Json.readsByMembers Settings.reads Settings.asks).mapError LoadError.json
  have hread (s : String) : Settings.ofFile (.ok s.toUTF8) =
      (Json.decode Settings.record.decode s).mapError LoadError.json := by
    rw [Settings.ofFile, FileContent.text_toUTF8]
  simpa only [hread] using h

/-- Whatever the order of its members, whatever unknown ones stand among them and however the text
is laid out, an object is read as the value whose members it has, also where a member is left out
that holds its default; so is an array of the fields in order, with or without the last of them
that hold their defaults. The same goes for the values within. Without a member that has no default
nothing is read. -/
theorem decoding_by_members :
    ReadsByMembers (Json.decode TimeRange.record.decode) TimeRange.parts TimeRange.needs ∧
      ReadsByMembers (Json.decode Metric.record.decode) Metric.parts Metric.needs ∧
      (∀ fresh, ReadsByMembers (Query.ofText fresh) Query.parts Query.needs) ∧
      ReadsByMembers ShardingConfig.ofText ShardingConfig.parts ShardingConfig.needs ∧
      ReadsByMembers (fun s => Settings.ofFile (.ok s.toUTF8)) Settings.parts Settings.needs :=
  ⟨Json.readsByMembers TimeRange.reads TimeRange.asks,
    Json.readsByMembers Metric.reads Metric.asks,
    fun fresh => Json.readsByMembers (fun q => q.reads fresh) (Query.asks fresh),
    (Json.readsByMembers ShardingConfig.reads ShardingConfig.asks).mapError _,
    Settings.readsByMembers⟩

/-- The members in another order, the configuration as an array without its last field, a member
that is not known and no latency; and a configuration without its parallelism. -/
theorem decoding_by_members_reordered :
    Settings.ofFile (.ok
        "\x7b\"points\": 7,\"note\":[1.5],\"sharding\":[null,\"split\",2]\x7d".toUTF8) =
      .ok ⟨⟨none, "split", 2, "largest"⟩, 20, 7⟩ ∧
    ∃ e, Settings.ofFile (.ok
        "\x7b\"points\": 7,\"sharding\":\x7b\"executorType\":\"split\"\x7d\x7d".toUTF8) =
      .error e := by
  have hone : Whole ['1'] :=
    ⟨⟨List.cons_ne_nil _ _, List.forall_mem_singleton.2 rfl⟩, fun _ _ hx => by cases hx⟩
  have hfive : Digits ['5'] := ⟨List.cons_ne_nil _ _, List.forall_mem_singleton.2 rfl⟩
  have hnumber : Grammar.Number ['1', '.', '5'] ⟨false, ['1'], some ['5'], none⟩ :=
    @Grammar.Number.parts false _ _ _ _ _ hone (.digits hfive) .none
  have hpoints := member_derives gaps_nil "points"
    (.behind (List.forall_mem_singleton.2 rfl : Gaps [' '])
      (chars_derives blank_line (.number 7) 0))
  have hnote := member_derives gaps_nil "note"
    (.behind gaps_nil (.array (.last (.behind gaps_nil (.number hnumber)))))
  have hsharding := member_derives gaps_nil "sharding"
    (.behind gaps_nil (chars_derives blank_line (.array [.null, .string "split", .number 2]) 0))
  have hlacking := member_derives gaps_nil "sharding"
    (.behind gaps_nil (chars_derives blank_line (.object [("executorType", .string "split")]) 0))
  obtain ⟨-, -, -, -, h⟩ := decoding_by_members
  constructor
  · refine h.form _ _ ⟨⟨none, "split", 2, "largest"⟩, 20, 7⟩
      (.behind gaps_nil (.object (.more hpoints (.more hnote (.last hsharding))))) ?_
    have hlisted : Form (ShardingConfig.parts ⟨none, "split", 2, "largest"⟩) _ :=
      .array (.item rfl (.item rfl (.item rfl (.rest (List.forall_mem_singleton.2 rfl)))))
    have hunknown (r : Reading) : Unknown
        (Settings.parts ⟨⟨none, "split", 2, "largest"⟩, 20, 7⟩) (.text "note", r) :=
      ⟨"note", rfl, by simp [Settings.parts, Part.value]⟩
    exact .object (.present hlisted (.absent rfl (.present rfl .nil)))
      (List.forall_mem_singleton.2 (hunknown _)) (@List.perm_append_comm _ [_, _] [_])
  · refine h.incomplete _ _
      (.behind gaps_nil (.object (.more hpoints (.last hlacking)))) ?_
    exact .member List.mem_cons_self (.tail _ (.head _))
      (.missing (.tail _ (.tail _ (.head _))) rfl (List.forall_mem_singleton.2 (by decide)))
end ScatterGather
