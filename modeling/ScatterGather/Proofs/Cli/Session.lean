import ScatterGather.Proofs.Cli.Directory
import ScatterGather.Proofs.Cli.Run
import ScatterGather.Proofs.Cli.Settings
import ScatterGather.Proofs.Coordinator.Resolution

/-! The settings that are shown as effective, and saved, are those that a run accepts. -/
namespace ScatterGather.Cli

open Session

variable {s : Settings} {r : Request} {a : Ambient} {d : Directory} {path : Option String}

/-- Something is wrong with the settings, and not with the query or a file. -/
def Failure.IsMisconfiguration : Failure → Prop
  | .settings _ => True
  | .unknownStrategy _ _ => True
  | .sharding (.configuration _) => True
  | _ => False

/-- A run gets past every check of the settings: their own, and those of the coordinator. -/
def Settings.Accepted (s : Settings) : Prop := s.validate = .ok () ∧ ∃ c, coordinator s = .ok c

namespace Session

theorem play_printAll (lines : List String) (next : Session) (d : Directory) :
    (printAll lines next).play d =
      { next.play d with printed := lines ++ (next.play d).printed } := by
  induction lines with
  | nil => rfl
  | cons line lines ih =>
    change ((printAll lines next).play d).printing line = _
    rw [ih]
    rfl

end Session

namespace Settings

theorem validate_sharding (h : s.validate = .ok ()) : s.sharding.validate = .ok () := by
  unfold validate at h
  split at h
  · cases h
  · assumption

theorem exists_coordinator (h : s.validate = .ok ()) : (∃ c, coordinator s = .ok c) ↔
    ∃ m, MergerRegistry.builtIn.get? s.sharding.strategy = some m := by
  rw [coordinator, Coordinator.exists_build_eq_ok rfl rfl rfl]
  simp [validate_sharding h]

/-- What is looked up is what is listed. -/
theorem accepted_iff_mem : s.Accepted ↔
    s.validate = .ok () ∧ s.sharding.strategy ∈ MergerRegistry.builtIn.strategies := by
  rw [Accepted, MergerRegistry.mem_strategies]
  exact and_congr_right exists_coordinator

theorem coordinator_of_missing (h : s.validate = .ok ())
    (hm : MergerRegistry.builtIn.get? s.sharding.strategy = none) :
    ∃ m, coordinator s = .error (.configuration m) := by
  simp [coordinator, Coordinator.build, validate_sharding h, hm]

end Settings

theorem showSettings_of_accepted (h : s.Accepted) (path : Option String) :
    ∃ lines, showSettings s path = printAll lines
      (match path with
        | some path => saveTo s path
        | none => .finish (.ok ())) := by
  obtain ⟨hv, hk⟩ := Settings.accepted_iff_mem.1 h
  simp only [showSettings, hv, if_pos hk]
  exact ⟨_, rfl⟩

theorem showSettings_of_not_accepted (h : ¬ s.Accepted) (path : Option String) :
    ∃ f, showSettings s path = fail f := by
  cases hv : s.validate with
  | error f => exact ⟨.settings f, by simp only [showSettings, hv]⟩
  | ok u =>
    have hk : s.sharding.strategy ∉ MergerRegistry.builtIn.strategies :=
      fun hk => h (Settings.accepted_iff_mem.2 ⟨hv, hk⟩)
    simp only [showSettings, hv, if_neg hk]
    exact ⟨_, rfl⟩

theorem result_query (hv : s.validate = .ok ()) (hne : r.metrics ≠ []) :
    ((query s r a).play d).result =
      match outcome s r a with
      | .ok _ => .ok ()
      | .error e => .error (.sharding e) := by
  have hfew : ¬ r.metrics.isEmpty = true := by simpa using hne
  simp only [query, hv]
  rw [if_neg hfew]
  simp only [play, Transcript.printing]
  cases outcome s r a with
  | ok bs =>
    simp only [play_printAll]
    rfl
  | error e => rfl

theorem accepted_iff_run (hne : r.metrics ≠ []) : s.Accepted ↔
    ∀ f, ((query s r a).play d).result = .error f → ¬ f.IsMisconfiguration := by
  constructor
  · rintro ⟨hv, hc⟩ f hf
    obtain ⟨m, hm⟩ := (Settings.exists_coordinator hv).1 hc
    rw [result_query hv hne] at hf
    have hout := outcome_ne_configuration (a := a) (Settings.validate_sharding hv) hm hne
    split at hf
    · cases hf
    · rename_i e he
      cases hf
      cases e with
      | configuration m => exact (hout m he).elim
      | _ => exact id
  · intro h
    cases hv : s.validate with
    | error f => exact (h (.settings f) (by simp only [query, hv]; rfl) trivial).elim
    | ok u =>
      refine ⟨hv, (Settings.exists_coordinator hv).2 ?_⟩
      by_contra hn
      have hm : MergerRegistry.builtIn.get? s.sharding.strategy = none :=
        Option.eq_none_iff_forall_ne_some.2 fun m hm => hn ⟨m, hm⟩
      obtain ⟨m, hc⟩ := Settings.coordinator_of_missing hv hm
      have hout : outcome s r a = .error (.configuration m) := by
        simp [outcome, simulate, hc, bind, Except.bind]
      refine h (.sharding (.configuration m)) ?_ trivial
      rw [result_query hv hne, hout]

theorem play_saveTo (s : Settings) (path : String) (d : Directory) : (saveTo s path).play d =
    match d.write path s.text with
    | .ok d' => ⟨[saveLine path], .ok (), d'⟩
    | .error e => ⟨[], .error (.save e), d⟩ := by
  simp only [saveTo, play]
  cases d.write path s.text <;> rfl

theorem result_show : ((showSettings s none).play d).result = .ok () ↔ s.Accepted := by
  by_cases h : s.Accepted
  · obtain ⟨lines, hs⟩ := showSettings_of_accepted h none
    rw [hs, play_printAll]
    exact iff_of_true rfl h
  · obtain ⟨f, hs⟩ := showSettings_of_not_accepted h none
    rw [hs]
    exact iff_of_false nofun h

/-- Either the settings are written after every check, or nothing is written. -/
theorem play_show_save (s : Settings) (path : String) (d : Directory) :
    let t := (showSettings s (some path)).play d
    t.result = .ok () ∧ s.Accepted ∧ d.write path s.text = .ok t.directory ∨
      (∃ f, t.result = .error f) ∧ t.directory = d ∧
        ¬ (s.Accepted ∧ ∃ d', d.write path s.text = .ok d') := by
  by_cases h : s.Accepted
  · obtain ⟨lines, hs⟩ := showSettings_of_accepted h (some path)
    simp only [hs, play_printAll, play_saveTo]
    cases hw : d.write path s.text with
    | ok d' => exact .inl ⟨rfl, h, rfl⟩
    | error e => exact .inr ⟨⟨_, rfl⟩, rfl, by simp⟩
  · obtain ⟨f, hs⟩ := showSettings_of_not_accepted h (some path)
    rw [hs]
    exact .inr ⟨⟨f, rfl⟩, rfl, fun hx => h hx.1⟩

section

variable {path : String}

theorem result_save : ((showSettings s (some path)).play d).result = .ok () ↔
    s.Accepted ∧ ∃ d', d.write path s.text = .ok d' := by
  obtain ⟨hr, ha, hw⟩ | ⟨⟨f, hr⟩, -, hn⟩ := play_show_save s path d
  · exact iff_of_true hr ⟨ha, _, hw⟩
  · exact iff_of_false (by rw [hr]; nofun) hn

theorem directory_of_failed {f : Failure}
    (h : ((showSettings s (some path)).play d).result = .error f) :
    ((showSettings s (some path)).play d).directory = d := by
  obtain ⟨hr, -⟩ | ⟨-, hd, -⟩ := play_show_save s path d
  · cases hr.symm.trans h
  · exact hd

theorem writable_of_saved (h : ((showSettings s (some path)).play d).result = .ok ()) :
    d.Writable path ∨
      ((showSettings s (some path)).play d).directory.read path = .ok "".toUTF8 := by
  obtain ⟨-, -, hw⟩ | ⟨⟨f, hr⟩, -⟩ := play_show_save s path d
  · exact Directory.writable_of_write hw
  · cases hr.symm.trans h

theorem reload_of_saved (hp : d.Writable path)
    (h : ((showSettings s (some path)).play d).result = .ok ()) :
    Settings.ofFile (((showSettings s (some path)).play d).directory.read path) = .ok s := by
  obtain ⟨-, -, hw⟩ | ⟨⟨f, hr⟩, -⟩ := play_show_save s path d
  · rw [Directory.read_of_write hp hw]
    exact s.ofFile_text
  · cases hr.symm.trans h

end

theorem command_config (s : Settings) (o : Overrides) (path : Option String) (a : Ambient) :
    command s (.config o path) a = showSettings (s.override o) path := rfl

theorem play_session_of_loaded {path : String} {verbose : Bool} {c : Command}
    (h : Settings.ofFile (d.read path) = .ok s) :
    (session ⟨verbose, some path, c⟩ a).play d = (command s c a).play d := by
  simp only [session, play, h]

/-- The settings with the overrides are shown just if a run gets past every check of them. They are
saved just if they are shown and can be written, or else no file is changed. When the file is read
again they are there, each one as the command line has it or else as it was loaded, and they are
shown again. (The null device can be written to, but there is no file to be read.) -/
theorem config_accepts_as_run (s : Settings) (o : Overrides) (a : Ambient) (d : Directory) :
    (((command s (.config o none) a).play d).result = .ok () ↔ (s.override o).Accepted) ∧
    (∀ r : Request, r.metrics ≠ [] → ((s.override o).Accepted ↔ ∀ f,
      ((command s (.run r o) a).play d).result = .error f → ¬ f.IsMisconfiguration)) ∧
    ∀ path t, (command s (.config o (some path)) a).play d = t →
      (t.result = .ok () ↔
        (s.override o).Accepted ∧ ∃ d', d.write path (s.override o).text = .ok d') ∧
      (∀ f, t.result = .error f → t.directory = d) ∧
      (¬ (s.override o).Accepted → ∃ f, command s (.config o (some path)) a = fail f) ∧
      (t.result = .ok () → d.Writable path ∨ t.directory.read path = .ok "".toUTF8) ∧
      (d.Writable path → (t.result = .ok () ↔ (s.override o).Accepted) ∧
        (t.result = .ok () →
          Settings.ofFile (t.directory.read path) = .ok
            ⟨⟨s.sharding.executorId, s.sharding.executorType,
              o.parallelism.getD s.sharding.parallelism, o.strategy.getD s.sharding.strategy⟩,
              o.latency.getD s.latency, o.points.getD s.points⟩ ∧
          ∀ verbose, ((session ⟨verbose, some path, .config {} none⟩ a).play t.directory).result =
            .ok ())) := by
  refine ⟨result_show, fun r hne => ?_, ?_⟩
  · rw [command, play_printAll]
    exact accepted_iff_run hne
  · rintro path t rfl
    rw [command_config]
    refine ⟨result_save, fun f => directory_of_failed, fun h => showSettings_of_not_accepted h _,
      writable_of_saved, fun hp => ⟨?_, fun hr => ⟨reload_of_saved hp hr, fun verbose => ?_⟩⟩⟩
    · have hw := Directory.exists_write hp (s.override o).text
      exact result_save.trans (and_iff_left hw)
    · rw [play_session_of_loaded (reload_of_saved hp hr)]
      exact result_show.2 (result_save.1 hr).1

def joining : Overrides := { parallelism := some 2, strategy := some "concat" }

theorem writable_c : Directory.Writable .empty "c" := by
  have hnames : Directory.namesIn "c" = ["c"] := by
    rw [Directory.namesIn, String.splitOn, if_neg (by decide), String.splitOnAux,
      if_neg (by decide), if_neg (by decide), String.splitOnAux, if_pos (by decide)]
    decide
  refine ⟨⟨[], "c", false⟩, ⟨?_, rfl, by decide, by decide, by decide⟩, by decide⟩
  rw [Directory.target_eq, hnames, if_neg (by decide), if_neg (by decide)]
  rfl

/-- Two of the settings are given on the command line, and the others have their defaults. -/
theorem config_accepts_as_run_joining : ∃ t : Transcript,
    (command .default (.config joining (some "c")) afternoon).play .empty = t ∧
      t.result = .ok () ∧ Settings.ofFile (t.directory.read "c") = .ok joined ∧
      ((session ⟨false, some "c", .config {} none⟩ afternoon).play t.directory).result = .ok () ∧
      ∀ f, ((command .default (.run halfDown joining) afternoon).play .empty).result = .error f →
        ¬ f.IsMisconfiguration := by
  have ha : (Settings.default.override joining).Accepted := ⟨rfl, _, rfl⟩
  obtain ⟨-, hrun, hsave⟩ := config_accepts_as_run .default joining afternoon .empty
  obtain ⟨-, -, -, -, hwritable⟩ := hsave "c" _ rfl
  obtain ⟨hresult, hreload⟩ := hwritable writable_c
  obtain ⟨hread, hagain⟩ := hreload (hresult.2 ha)
  exact ⟨_, rfl, hresult.2 ha, hread, hagain false, (hrun halfDown (List.cons_ne_nil _ _)).1 ha⟩

end ScatterGather.Cli
