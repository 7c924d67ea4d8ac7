import ScatterGather.Scenario.Handles

/-! What a look at a handle finds is up to the completer alone, and the shared token is up to the
cancellations alone, whichever of the two ends goes away first. -/
namespace ScatterGather

variable {V : Type}

namespace Handle

variable {h h' : Handle V} {r : Except QueryError V} {listened : Bool}

theorem complete_eq_some : h.complete r = some (h', listened) ↔
    h.completer = .pending ∧ h' = { h with completer := .used r } ∧ listened = h.isHeld := by
  cases hp : h.completer <;> simp [complete, hp, eq_comm]

theorem dropCompleter_eq_some : h.dropCompleter = some h' ↔
    h.completer = .pending ∧ h' = { h with completer := .dropped } := by
  cases hp : h.completer <;> simp [dropCompleter, hp, eq_comm]

end Handle

/-- What can be done with the two ends of a channel, with hooks saved from its handle and with
tokens taken from its completer. -/
inductive Use (V : Type)
  | cancel
  | saveHook
  | cancelHook
  | takeToken
  | cancelToken
  | readToken
  /-- Asks the completer whether the handle was cancelled. -/
  | ask
  | complete (r : Except QueryError V)
  | dropCompleter
  | dropHandle
  /-- A look uses the handle up if it finds a result. -/
  | look

/-- What a use comes back with. -/
inductive Found (V : Type)
  | nothing
  | flag (b : Bool)
  | pending
  | result (r : Except QueryError V)

/-- A channel, with whether hooks and tokens of it are around. Both outlive its ends. -/
structure Channel (V : Type) where
  ends : Handle V
  hasHook : Bool
  hasToken : Bool

def Use.cancels : Use V → Bool
  | cancel => true
  | cancelHook => true
  | cancelToken => true
  | _ => false

namespace Channel

def fresh : Channel V := ⟨.channel, false, false⟩

/-- Whether the completer has not been used or dropped. -/
def isOpen (c : Channel V) : Bool :=
  match c.ends.completer with
  | .pending => true
  | _ => false

/-- A use needs the end, the hook or the token that it is made of. -/
def step (c : Channel V) : Use V → Option (Channel V × Found V)
  | .cancel => if c.ends.isHeld then some ({ c with ends := c.ends.cancel }, .nothing) else none
  | .saveHook => if c.ends.isHeld then some ({ c with hasHook := true }, .nothing) else none
  | .cancelHook => if c.hasHook then some ({ c with ends := c.ends.cancel }, .nothing) else none
  | .takeToken => if c.isOpen then some ({ c with hasToken := true }, .nothing) else none
  | .cancelToken => if c.hasToken then some ({ c with ends := c.ends.cancel }, .nothing) else none
  | .readToken => if c.hasToken then some (c, .flag c.ends.isCancelled) else none
  | .ask => if c.isOpen then some (c, .flag c.ends.isCancelled) else none
  | .complete r =>
    (c.ends.complete r).map fun (ends, listened) => ({ c with ends }, .flag listened)
  | .dropCompleter => c.ends.dropCompleter.map fun ends => ({ c with ends }, .nothing)
  | .dropHandle => if c.ends.isHeld then some ({ c with ends := c.ends.drop }, .nothing) else none
  | .look =>
    if c.ends.isHeld then
      match c.ends.result? with
      | none => some (c, .pending)
      | some r => some ({ c with ends := c.ends.drop }, .result r)
    else none

def run (c : Channel V) : List (Use V) → Option (Channel V × List (Found V))
  | [] => some (c, [])
  | u :: us =>
    match c.step u with
    | none => none
    | some (c', found) => (c'.run us).map fun (c'', later) => (c'', found :: later)

variable {c c' : Channel V} {u : Use V} {us later : List (Use V)} {found : Found V}
  {fs gs : List (Found V)}

/-- Nothing has ended the completer. -/
def Unused (us : List (Use V)) : Prop := (∀ r, .complete r ∉ us) ∧ .dropCompleter ∉ us

/-- The handle was neither dropped nor used up by a look. -/
def Kept (us : List (Use V)) (fs : List (Found V)) : Prop :=
  .dropHandle ∉ us ∧ ∀ r, .result r ∉ fs

def Cancelled (us : List (Use V)) : Prop := ∃ u ∈ us, u.cancels = true

/-- What a channel is like after its uses. -/
structure Recalls (us : List (Use V)) (fs : List (Found V)) (c : Channel V) : Prop where
  used : ∀ r, c.ends.completer = .used r ↔ .complete r ∈ us
  dropped : c.ends.completer = .dropped ↔ .dropCompleter ∈ us
  held : c.ends.isHeld = true ↔ Kept us fs
  cancelled : c.ends.isCancelled = true ↔ Cancelled us
  hook : c.hasHook = true ↔ .saveHook ∈ us
  token : c.hasToken = true ↔ .takeToken ∈ us

theorem recalls_fresh : Recalls (V := V) [] [] .fresh := by
  constructor <;> simp [fresh, Handle.channel, Kept, Cancelled]

theorem isOpen_iff : c.isOpen = true ↔ c.ends.completer = .pending := by
  unfold isOpen
  split <;> simp_all

theorem Recalls.unused (h : Recalls us fs c) : c.ends.completer = .pending ↔ Unused us := by
  simp only [Unused, ← h.used, ← h.dropped]
  cases c.ends.completer <;> simp

theorem kept_snoc :
    Kept (us ++ [u]) (fs ++ [found]) ↔ Kept us fs ∧ u ≠ .dropHandle ∧ ∀ r, found ≠ .result r := by
  simp only [Kept, List.mem_append, List.mem_singleton, not_or, eq_comm, forall_and, ne_eq]
  exact and_and_and_comm

theorem cancelled_snoc : Cancelled (us ++ [u]) ↔ Cancelled us ∨ u.cancels = true := by
  simp only [Cancelled, List.mem_append, List.mem_singleton, or_and_right, exists_or,
    exists_eq_left]

/-- A look that finds nothing, or a question. -/
theorem Recalls.silent (h : Recalls us fs c) (hu : u = .readToken ∨ u = .ask ∨ u = .look)
    (hf : ∀ r, found ≠ .result r) : Recalls (us ++ [u]) (fs ++ [found]) c := by
  rcases hu with rfl | rfl | rfl <;>
    constructor <;>
      simp [h.used, h.dropped, h.held, h.cancelled, h.hook, h.token, kept_snoc, cancelled_snoc,
        hf, Use.cancels]

theorem recalls_complete {r : Except QueryError V} {ends : Handle V} {listened : Bool}
    (h : Recalls us fs c) (hs : c.ends.complete r = some (ends, listened)) :
    Recalls (us ++ [.complete r]) (fs ++ [.flag listened]) { c with ends } := by
  obtain ⟨hp, rfl, rfl⟩ := Handle.complete_eq_some.1 hs
  obtain ⟨hno, hkept⟩ := h.unused.1 hp
  constructor <;>
    simp [hno, hkept, h.held, h.cancelled, h.hook, h.token, kept_snoc, cancelled_snoc,
      Use.cancels, eq_comm]

theorem recalls_dropCompleter {ends : Handle V} (h : Recalls us fs c)
    (hs : c.ends.dropCompleter = some ends) :
    Recalls (us ++ [.dropCompleter]) (fs ++ [.nothing]) { c with ends } := by
  obtain ⟨hp, rfl⟩ := Handle.dropCompleter_eq_some.1 hs
  obtain ⟨hno, -⟩ := h.unused.1 hp
  constructor <;>
    simp [hno, h.held, h.cancelled, h.hook, h.token, kept_snoc, cancelled_snoc, Use.cancels]

theorem recalls_step (h : Recalls us fs c) (hs : c.step u = some (c', found)) :
    Recalls (us ++ [u]) (fs ++ [found]) c' := by
  cases u with
  | cancel | cancelHook | cancelToken | saveHook | takeToken | dropHandle =>
    obtain ⟨-, ht⟩ := Option.ite_none_right_eq_some.1 hs
    cases ht
    constructor <;>
      simp [h.used, h.dropped, h.held, h.cancelled, h.hook, h.token, kept_snoc, cancelled_snoc,
        Use.cancels, Handle.cancel, Handle.drop]
  | readToken | ask =>
    obtain ⟨-, ht⟩ := Option.ite_none_right_eq_some.1 hs
    cases ht
    exact h.silent (by simp) nofun
  | complete r =>
    obtain ⟨⟨ends, listened⟩, he, ht⟩ := Option.map_eq_some_iff.1 hs
    cases ht
    exact recalls_complete h he
  | dropCompleter =>
    obtain ⟨ends, he, ht⟩ := Option.map_eq_some_iff.1 hs
    cases ht
    exact recalls_dropCompleter h he
  | look =>
    obtain ⟨-, ht⟩ := Option.ite_none_right_eq_some.1 hs
    split at ht
    · cases ht
      exact h.silent (by simp) nofun
    · cases ht
      constructor <;>
        simp [h.used, h.dropped, h.cancelled, h.hook, h.token, kept_snoc, cancelled_snoc,
          Use.cancels, Handle.drop]

theorem recalls_run (h : Recalls us fs c) (hr : c.run later = some (c', gs)) :
    Recalls (us ++ later) (fs ++ gs) c' := by
  induction later generalizing us fs c gs with
  | nil =>
    cases hr
    simpa using h
  | cons u later ih =>
    simp only [run] at hr
    split at hr
    · cases hr
    · rename_i c₁ found hs
      obtain ⟨⟨c₂, gs⟩, hr', ht⟩ := Option.map_eq_some_iff.1 hr
      cases ht
      simpa using ih (recalls_step h hs) hr'

/-- Channels that have been used. -/
def Reached (c : Channel V) : Prop := ∃ us fs, fresh.run us = some (c, fs)

theorem run_snoc {c₀ : Channel V} (hr : c₀.run us = some (c, fs))
    (hs : c.step u = some (c', found)) :
    c₀.run (us ++ [u]) = some (c', fs ++ [found]) := by
  induction us generalizing c₀ fs with
  | nil =>
    cases hr
    simp [run, hs]
  | cons v us ih =>
    simp only [run] at hr
    split at hr
    · cases hr
    · rename_i c₁ f hv
      obtain ⟨⟨c₂, gs⟩, hr', ht⟩ := Option.map_eq_some_iff.1 hr
      cases ht
      simp [run, hv, ih hr']

theorem Reached.step (h : Reached c) (hs : c.step u = some (c', found)) : Reached c' := by
  obtain ⟨us, fs, hr⟩ := h
  exact ⟨us ++ [u], fs ++ [found], run_snoc hr hs⟩

theorem Recalls.ask (h : Recalls us fs c) (hu : Unused us) :
    c.step .ask = some (c, .flag c.ends.isCancelled) :=
  if_pos (isOpen_iff.2 (h.unused.2 hu))

theorem Recalls.readToken (h : Recalls us fs c) (ht : .takeToken ∈ us) :
    c.step .readToken = some (c, .flag c.ends.isCancelled) :=
  if_pos (h.token.2 ht)

/-- A handle that is there finds what its completer has come to. -/
theorem Recalls.look (h : Recalls us fs c) (hk : Kept us fs) :
    ∃ c', c.step .look = some (c',
      match c.ends.completer with
      | .pending => .pending
      | .used r => .result r
      | .dropped => .result (.error .unfinished)) := by
  simp only [step, if_pos (h.held.2 hk), Handle.result?]
  cases c.ends.completer <;> exact ⟨_, rfl⟩

theorem Recalls.complete (h : Recalls us fs c) (hu : Unused us) (r : Except QueryError V) :
    ∃ c', c.step (.complete r) = some (c', .flag c.ends.isHeld) := by
  have hs : c.ends.complete r = some ({ c.ends with completer := .used r }, c.ends.isHeld) :=
    Handle.complete_eq_some.2 ⟨h.unused.2 hu, rfl, rfl⟩
  exact ⟨_, by rw [step, hs]; rfl⟩

/-- Whatever is done with the two ends, in whatever order: a look at the handle finds what the
completer was used with, or that it went away unused, or nothing yet, and no cancellation changes
that. The completer learns whether the handle is there. The completer and every token read whether
there was a cancellation, through the handle, a hook or a token. Hooks and tokens work also when
the handle is gone, and what is cancelled stays so. -/
theorem completer_and_token (h : fresh.run us = some (c, fs)) :
    (Kept us fs →
      (∀ r, .complete r ∈ us → ∃ c', c.step .look = some (c', .result r)) ∧
      (.dropCompleter ∈ us → ∃ c', c.step .look = some (c', .result (.error .unfinished))) ∧
      (Unused us → ∃ c', c.step .look = some (c', .pending))) ∧
    (Unused us → ∀ r, ∃ c' listened, c.step (.complete r) = some (c', .flag listened) ∧
      (listened = true ↔ Kept us fs)) ∧
    (.saveHook ∈ us → ∃ c', c.step .cancelHook = some (c', .nothing)) ∧
    (.takeToken ∈ us → ∃ c', c.step .cancelToken = some (c', .nothing)) ∧
    ∃ cancelled, (cancelled = true ↔ Cancelled us) ∧
      (Unused us → c.step .ask = some (c, .flag cancelled)) ∧
      (.takeToken ∈ us → c.step .readToken = some (c, .flag cancelled)) ∧
      (cancelled = true → ∀ later c' gs, c.run later = some (c', gs) →
        (Unused (us ++ later) → c'.step .ask = some (c', .flag true)) ∧
        (.takeToken ∈ us ++ later → c'.step .readToken = some (c', .flag true))) := by
  have hc : Recalls us fs c := recalls_run recalls_fresh h
  refine ⟨fun hk => ?_, fun hu r => ?_, fun hh => ⟨_, if_pos (hc.hook.2 hh)⟩,
    fun ht => ⟨_, if_pos (hc.token.2 ht)⟩, c.ends.isCancelled, hc.cancelled, hc.ask, hc.readToken,
    fun hx later c' gs hr => ?_⟩
  · obtain ⟨c', hl⟩ := hc.look hk
    refine ⟨fun r hr => ⟨c', ?_⟩, fun hd => ⟨c', ?_⟩, fun hu => ⟨c', ?_⟩⟩
    · rw [hl, (hc.used r).2 hr]
    · rw [hl, hc.dropped.2 hd]
    · rw [hl, hc.unused.2 hu]
  · obtain ⟨c', hs⟩ := hc.complete hu r
    exact ⟨c', c.ends.isHeld, hs, hc.held⟩
  · have hc' := recalls_run hc hr
    obtain ⟨u, hu, hcancels⟩ := hc.cancelled.1 hx
    have hx' : c'.ends.isCancelled = true :=
      hc'.cancelled.2 ⟨u, List.mem_append_left _ hu, hcancels⟩
    rw [← hx']
    exact ⟨hc'.ask, hc'.readToken⟩

/-- The handle goes before anything was found. A hook that was saved from it cancels. -/
def letGo : List (Use Nat) := [.saveHook, .takeToken, .look, .dropHandle, .cancelHook]

/-- Cancelled before it is completed. -/
def tooLate : List (Use Nat) := [.cancel, .complete (.ok 7)]

theorem completer_and_token_letGo :
    (∃ c fs, fresh.run letGo = some (c, fs) ∧ Unused letGo ∧
      (∃ c', c.step (.complete (.ok 7)) = some (c', .flag false)) ∧
      c.step .readToken = some (c, .flag true)) ∧
    ∃ c fs, fresh.run tooLate = some (c, fs) ∧ ∃ c', c.step .look = some (c', .result (.ok 7)) := by
  constructor
  · obtain ⟨c, fs, hr⟩ : ∃ c fs, fresh.run letGo = some (c, fs) := ⟨_, _, rfl⟩
    obtain ⟨-, hcomplete, -, -, cancelled, hx, -, hread, -⟩ := completer_and_token hr
    have hu : Unused letGo := by simp [Unused, letGo]
    have hgone : ¬ Kept letGo fs := by simp [Kept, letGo]
    obtain ⟨c', listened, hs, hl⟩ := hcomplete hu (.ok 7)
    obtain rfl : listened = false := Bool.eq_false_iff.2 fun ht => hgone (hl.1 ht)
    obtain rfl : cancelled = true := hx.2 ⟨.cancelHook, by simp [letGo], rfl⟩
    exact ⟨c, fs, hr, hu, ⟨c', hs⟩, hread (by simp [letGo])⟩
  · obtain ⟨c, fs, hr, hk⟩ : ∃ c fs, fresh.run tooLate = some (c, fs) ∧ Kept tooLate fs :=
      ⟨_, _, rfl, by simp [Kept, tooLate]⟩
    exact ⟨c, fs, hr, ((completer_and_token hr).1 hk).1 (.ok 7) (by simp [tooLate])⟩

end Channel

namespace Scenario.Handles.Seat

open Channel

variable {s : Seat V} {c c' : Channel V} {u : Use V} {found : Found V}

/-- The channel of a seat has been used as a channel can be. The script keeps a hook and a token of
it, and its handle until that is released. -/
structure Seated (s : Seat V) : Prop where
  channel : ∀ h, s.channel = some h → Reached ⟨h, true, true⟩
  handle : s.handle = some .channel → ∃ h, s.channel = some h ∧ h.isHeld = true

theorem seated_empty : Seated (V := V) .empty := ⟨nofun, nofun⟩

/-- A use of the seat's channel that leaves the handle there. -/
theorem Seated.used {h h' : Handle V} (hs : Seated s) (hc : s.channel = some h)
    (hu : Channel.step ⟨h, true, true⟩ u = some (⟨h', true, true⟩, found))
    (hh : h'.isHeld = h.isHeld) : Seated { s with channel := some h' } where
  channel := by
    rintro _ ⟨⟩
    exact (hs.channel h hc).step hu
  handle := by
    intro hx
    obtain ⟨h₁, hc₁, hh₁⟩ := hs.handle hx
    obtain rfl : h = h₁ := Option.some.inj (hc.symm.trans hc₁)
    exact ⟨h', rfl, hh.trans hh₁⟩

theorem seated_release (hs : Seated s) : Seated s.release := by
  unfold release
  split
  · rename_i hx
    obtain ⟨h, hc, hh⟩ := hs.handle hx
    refine ⟨?_, nofun⟩
    intro h' hc'
    obtain rfl : h.drop = h' := by simpa [hc] using hc'
    exact (hs.channel h hc).step (u := .dropHandle) (if_pos hh)
  · exact ⟨hs.channel, nofun⟩

theorem seated_cancel (hs : Seated s) (c : Source V) : Seated (s.cancel c) := by
  cases c with
  | channel =>
    cases hc : s.channel with
    | none =>
      refine ⟨fun h hx => ?_, fun hx => ?_⟩
      · simp [cancel, hc] at hx
      · obtain ⟨h, hc', -⟩ := hs.handle hx
        simp [hc] at hc'
    | some h => simpa [cancel, hc] using hs.used hc (u := .cancelHook) rfl rfl
  | ready r => exact hs
  | counted r => exact ⟨hs.channel, hs.handle⟩

theorem seated_step (hs : Seated s) (m : Step V) : Seated (s.step m).2 := by
  cases m with
  | channel =>
    have hnew : Reached (V := V) ⟨.channel, true, true⟩ := ⟨[.saveHook, .takeToken], _, rfl⟩
    exact ⟨fun _ hc => Option.some.inj hc ▸ hnew, fun _ => ⟨.channel, rfl, rfl⟩⟩
  | ready r => exact ⟨(seated_release hs).channel, nofun⟩
  | counted r => exact ⟨(seated_release hs).channel, nofun⟩
  | cancel =>
    simp only [step]
    split
    · exact seated_cancel hs _
    · exact hs
  | cancelHook =>
    simp only [step]
    split
    · exact seated_cancel hs _
    · exact hs
  | isCancelled | tokenCancelled | cancelCount =>
    simp only [step]
    split <;> exact hs
  | complete r =>
    simp only [step]
    split
    · rename_i h' listened hx
      obtain ⟨h, hc, hcomplete⟩ := Option.bind_eq_some_iff.1 hx
      obtain ⟨-, rfl, -⟩ := Handle.complete_eq_some.1 hcomplete
      have hu : Channel.step ⟨h, true, true⟩ (.complete r) =
          some (⟨{ h with completer := .used r }, true, true⟩, .flag listened) := by
        simp [Channel.step, hcomplete]
      exact hs.used hc hu rfl
    · exact hs
  | dropCompleter =>
    simp only [step]
    split
    · rename_i h' hx
      obtain ⟨h, hc, hdrop⟩ := Option.bind_eq_some_iff.1 hx
      obtain ⟨-, rfl⟩ := Handle.dropCompleter_eq_some.1 hdrop
      have hu : Channel.step ⟨h, true, true⟩ .dropCompleter =
          some (⟨{ h with completer := .dropped }, true, true⟩, .nothing) := by
        simp [Channel.step, hdrop]
      exact hs.used hc hu rfl
    · exact hs
  | dropHandle => exact seated_release hs
  | await =>
    simp only [step]
    split
    · exact hs
    · split <;> exact seated_release hs

/-- Whatever a script does with a seat, it does to its channel what can be done with one. -/
theorem reached_of_script (ms : List (Step V)) {h : Handle V}
    (hc : (ms.foldl (fun (s : Seat V) m => (s.step m).2) Seat.empty).channel = some h) :
    Reached ⟨h, true, true⟩ := by
  have hs : Seated (ms.foldl (fun (s : Seat V) m => (s.step m).2) Seat.empty) :=
    List.foldlRecOn ms _ seated_empty fun _ hs m _ => seated_step hs m
  exact hs.channel h hc

end Scenario.Handles.Seat
end ScatterGather
