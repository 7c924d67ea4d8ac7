import Mathlib.Data.List.Nodup
import ScatterGather.Proofs.Json.Decode

/-!
Records by their members. A value is shown by an object with its members in any order, among any
others, or by an array of its fields in order; a field that may be left out is one whose default
the value holds. A record is read from each such form, and from none where a member is missing that
has no default.
-/
namespace ScatterGather.Json

/-- What a value shows of one field: the readings that stand for it, and whether it can be left
out. -/
structure Part where
  name : String
  stands : Reading → Prop
  canLack : Prop

/-- A part for which one value stands. -/
def Part.value (name : String) (j : Json) (canLack : Prop) : Part :=
  ⟨name, (· = j.reading), canLack⟩

/-- Members for some of the parts, in their order; the others can be left out. -/
inductive Shown : List Part → List (Key × Reading) → Prop
  | nil : Shown [] []
  | present {p : Part} {ps : List Part} {ms : List (Key × Reading)} {r : Reading}
      (hr : p.stands r) (h : Shown ps ms) : Shown (p :: ps) ((.text p.name, r) :: ms)
  | absent {p : Part} {ps : List Part} {ms : List (Key × Reading)} (hp : p.canLack)
      (h : Shown ps ms) : Shown (p :: ps) ms

/-- Items for the first parts; those behind them can be left out. -/
inductive Listed : List Part → List Reading → Prop
  | rest {ps : List Part} (h : ∀ p ∈ ps, p.canLack) : Listed ps []
  | item {p : Part} {ps : List Part} {r : Reading} {rs : List Reading} (hr : p.stands r)
      (h : Listed ps rs) : Listed (p :: ps) (r :: rs)

/-- A member under a name that no part has. -/
def Unknown (parts : List Part) (m : Key × Reading) : Prop :=
  ∃ name, m.1 = .text name ∧ ∀ p ∈ parts, p.name ≠ name

/-- The readings that show a value with these parts. -/
inductive Form (parts : List Part) : Reading → Prop
  | object {known unknown ms : List (Key × Reading)} (hk : Shown parts known)
      (hu : ∀ m ∈ unknown, Unknown parts m) (hp : ms.Perm (known ++ unknown)) :
      Form parts (.object ms .closed)
  | array {items : List Reading} (h : Listed parts items) : Form parts (.array items .closed)

/-- What a record asks of one field: whether it has to be there, and the readings in its place
within which something is missing. -/
structure Need where
  name : String
  isRequired : Bool
  lacks : Reading → Prop

/-- A field in whose place nothing can be missing. -/
def Need.value (name : String) (isRequired : Bool) : Need := ⟨name, isRequired, fun _ => False⟩

/-- The readings in which a member is missing that has to be there, here or further in. -/
inductive Incomplete (needs : List Need) : Reading → Prop
  | missing {n : Need} {ms : List (Key × Reading)} {e : Ending} (hn : n ∈ needs)
      (hr : n.isRequired = true) (hms : ∀ m ∈ ms, m.1 ≠ .text n.name) :
      Incomplete needs (.object ms e)
  | member {n : Need} {ms : List (Key × Reading)} {e : Ending} {r : Reading} (hn : n ∈ needs)
      (hm : (.text n.name, r) ∈ ms) (hr : n.lacks r) : Incomplete needs (.object ms e)
  | item {i : Nat} {n : Need} {items : List Reading} {e : Ending} {r : Reading}
      (hn : needs[i]? = some n) (hi : items[i]? = some r) (hr : n.lacks r) :
      Incomplete needs (.array items e)

variable {parts : List Part} {known unknown ms : List (Key × Reading)} {m : Key × Reading}

theorem Shown.stands (h : Shown parts ms) (hm : m ∈ ms) :
    ∃ p ∈ parts, m.1 = .text p.name ∧ p.stands m.2 := by
  induction h with
  | nil => cases hm
  | @present p ps ms r hr _ ih =>
    rcases List.mem_cons.1 hm with rfl | hm
    · exact ⟨p, List.mem_cons_self, rfl, hr⟩
    · obtain ⟨q, hq, hmq⟩ := ih hm
      exact ⟨q, List.mem_cons_of_mem p hq, hmq⟩
  | @absent p _ _ _ _ ih =>
    obtain ⟨q, hq, hmq⟩ := ih hm
    exact ⟨q, List.mem_cons_of_mem p hq, hmq⟩

theorem Shown.covers (h : Shown parts ms) :
    ∀ p ∈ parts, (∃ m ∈ ms, m.1 = .text p.name) ∨ p.canLack := by
  induction h with
  | nil => nofun
  | @present p ps ms r _ _ ih =>
    refine List.forall_mem_cons.2 ⟨.inl ⟨_, List.mem_cons_self, rfl⟩, fun q hq => ?_⟩
    rcases ih q hq with ⟨m, hm, hmq⟩ | hlack
    · exact .inl ⟨m, List.mem_cons_of_mem _ hm, hmq⟩
    · exact .inr hlack
  | absent hp _ ih => exact List.forall_mem_cons.2 ⟨.inr hp, ih⟩

theorem Shown.pairwise (h : Shown parts ms) (hd : (parts.map Part.name).Nodup) :
    ms.Pairwise fun a b => a.1 ≠ b.1 := by
  induction h with
  | nil => exact .nil
  | @present p ps ms r _ h ih =>
    obtain ⟨hp, hd⟩ := List.nodup_cons.1 hd
    refine List.pairwise_cons.2 ⟨fun m hm hx => ?_, ih hd⟩
    obtain ⟨q, hq, hmq, _⟩ := h.stands hm
    have hname : p.name = q.name := Key.text.inj (hx.trans hmq)
    exact hp (hname ▸ List.mem_map_of_mem hq)
  | absent _ _ ih => exact ih (List.nodup_cons.1 hd).2

/-- An object with nothing unknown in it. -/
theorem Form.written {members : List (String × Json)} (h : Shown parts (memberReadings members)) :
    Form parts (Json.object members).reading :=
  .object h (fun _ hm => (List.not_mem_nil hm).elim) (.of_eq (List.append_nil _).symm)

/-- A member whose value can be passed over, and stands for the part of its name if there is one. -/
def Fits (parts : List Part) (m : Key × Reading) : Prop :=
  ∃ name, m.1 = .text name ∧ m.2.skip = .ok () ∧ ∀ p ∈ parts, p.name = name → p.stands m.2

/-- No part has two members. -/
def Single (parts : List Part) (ms : List (Key × Reading)) : Prop :=
  ms.Pairwise fun a b => a.1 = b.1 → ∀ p ∈ parts, a.1 ≠ .text p.name

theorem fits_of_perm (hd : (parts.map Part.name).Nodup) (hk : Shown parts known)
    (hu : ∀ m ∈ unknown, Unknown parts m) (hp : ms.Perm (known ++ unknown)) (hm : m ∈ ms)
    (hskip : m.2.skip = .ok ()) : Fits parts m := by
  rcases List.mem_append.1 (hp.mem_iff.1 hm) with hm | hm
  · obtain ⟨p, hp, hmp, hstands⟩ := hk.stands hm
    refine ⟨p.name, hmp, hskip, fun q hq hname => ?_⟩
    obtain rfl := List.inj_on_of_nodup_map hd hq hp hname
    exact hstands
  · obtain ⟨name, hname, hother⟩ := hu m hm
    exact ⟨name, hname, hskip, fun p hp hx => (hother p hp hx).elim⟩

theorem single_of_perm (hd : (parts.map Part.name).Nodup) (hk : Shown parts known)
    (hu : ∀ m ∈ unknown, Unknown parts m) (hp : ms.Perm (known ++ unknown)) :
    Single parts ms := by
  have hunknown : ∀ m ∈ unknown, ∀ p ∈ parts, m.1 ≠ .text p.name := by
    intro m hm p hp hx
    obtain ⟨name, hname, hother⟩ := hu m hm
    exact hother p hp (Key.text.inj (hx.symm.trans hname))
  have hsymm {a b : Key × Reading} (h : a.1 = b.1 → ∀ p ∈ parts, a.1 ≠ .text p.name) :
      b.1 = a.1 → ∀ p ∈ parts, b.1 ≠ .text p.name := fun hx => hx ▸ h hx.symm
  refine (hp.pairwise_iff hsymm).2 (List.pairwise_append.2 ⟨?_, ?_, ?_⟩)
  · exact (hk.pairwise hd).imp fun hne hx => (hne hx).elim
  · exact List.pairwise_of_forall_mem_list fun a ha _ _ _ => hunknown a ha
  · intro a _ b hb hx
    exact hx ▸ hunknown b hb

namespace Record

variable {δ ρ : Type} {s : Record δ ρ} {draft : List String → δ} {v : ρ}

/-- A field reads what stands for its part: it fills in the draft in which the fields of these
names are filled in. -/
structure Fills (draft : List String → δ) (f : Field δ) (p : Part) : Prop where
  name : f.name = p.name
  optional : p.canLack → f.isOptional = true
  decode : ∀ r, r.skip = .ok () → p.stands r →
    ∃ set, f.decode r = .ok set ∧ ∀ seen, set (draft seen) = draft (p.name :: seen)

/-- A record whose fields read the parts of `v`, and which makes `v` of them. -/
structure Reads (s : Record δ ρ) (parts : List Part) (draft : List String → δ) (v : ρ) : Prop where
  fields : List.Forall₂ (Fills draft) s.fields parts
  distinct : (parts.map Part.name).Nodup
  empty : s.empty = draft []
  finish : ∀ seen, (∀ p ∈ parts, p.name ∈ seen ∨ p.canLack) → s.finish (draft seen) = .ok v

/-- What a draft holds of a field under `name`, once the fields of these names are filled in. -/
def filled {α : Type} (name : String) (a : α) (seen : List String) : Option α :=
  if name ∈ seen then some a else none

theorem filled_getD {α : Type} {name : String} {a default : α} {seen : List String}
    (h : name ∈ seen ∨ a = default) : (filled name a seen).getD default = a := by
  by_cases hn : name ∈ seen
  · rw [filled, if_pos hn, Option.getD_some]
  · rw [filled, if_neg hn, Option.getD_none, h.resolve_left hn]

theorem required_filled {α : Type} {name : String} {a : α} {seen : List String}
    (h : name ∈ seen ∨ False) : required name (filled name a seen) = .ok a := by
  rw [filled, if_pos (h.resolve_right id), required]

theorem fills_of {α : Type} {name : String} {isOptional : Bool} {d : Decoder α}
    {set : α → δ → δ} {stands : Reading → Prop} {canLack : Prop} {a : α}
    (hoptional : canLack → isOptional = true)
    (hd : ∀ r, r.skip = .ok () → stands r → d r = .ok a)
    (hset : ∀ seen, set a (draft seen) = draft (name :: seen)) :
    Fills draft (.of name isOptional d set) ⟨name, stands, canLack⟩ := by
  refine ⟨rfl, hoptional, fun r hskip hr => ⟨set a, ?_, hset⟩⟩
  change (d r).map set = _
  rw [hd r hskip hr]
  rfl

theorem fills_value {α : Type} {name : String} {isOptional : Bool} {d : Decoder α}
    {set : α → δ → δ} {j : Json} {canLack : Prop} {a : α}
    (hoptional : canLack → isOptional = true) (hd : d j.reading = .ok a)
    (hset : ∀ seen, set a (draft seen) = draft (name :: seen)) :
    Fills draft (.of name isOptional d set) (.value name j canLack) :=
  fills_of hoptional (fun _ _ hr => hr ▸ hd) hset

theorem lookup_cases {fields : List (Field δ)} (h : List.Forall₂ (Fills draft) fields parts)
    (name : String) : (lookup fields name = none ∧ ∀ p ∈ parts, p.name ≠ name) ∨
      ∃ f p, lookup fields name = some f ∧ p ∈ parts ∧ p.name = name ∧ Fills draft f p := by
  induction h with
  | nil => exact .inl ⟨rfl, nofun⟩
  | @cons f p fs ps hf _ ih =>
    by_cases hp : p.name = name
    · have hname : f.name = name := hf.name.trans hp
      have hlook : lookup (f :: fs) name = some f := by simp [lookup, hname]
      exact .inr ⟨f, p, hlook, List.mem_cons_self, hp, hf⟩
    · have hname : f.name ≠ name := fun hx => hp (hf.name.symm.trans hx)
      have hlook : lookup (f :: fs) name = lookup fs name := by simp [lookup, hname]
      rw [hlook]
      rcases ih with ⟨hnone, hps⟩ | ⟨f', p', hsome, hmem, hname, hf'⟩
      · exact .inl ⟨hnone, List.forall_mem_cons.2 ⟨hp, hps⟩⟩
      · exact .inr ⟨f', p', hsome, List.mem_cons_of_mem p hmem, hname, hf'⟩

/-- Whatever the order of the members, the draft is filled in by those that are known. -/
theorem readMembers_fits {fields : List (Field δ)} (h : List.Forall₂ (Fills draft) fields parts)
    {ms : List (Key × Reading)} (hfits : ∀ m ∈ ms, Fits parts m) (hsingle : Single parts ms) :
    ∀ seen : List String, (∀ m ∈ ms, ∀ name ∈ seen, m.1 ≠ .text name) →
      ∃ seen', readMembers fields seen (draft seen) ms = .ok (draft seen') ∧ seen ⊆ seen' ∧
        ∀ p ∈ parts, ∀ m ∈ ms, m.1 = .text p.name → p.name ∈ seen' := by
  induction ms with
  | nil =>
    intro seen _
    exact ⟨seen, rfl, List.Subset.refl seen, fun _ _ _ hm => (List.not_mem_nil hm).elim⟩
  | cons m ms ih =>
    intro seen hseen
    obtain ⟨k, r⟩ := m
    obtain ⟨⟨name, hk, hskip, hstands⟩, hfits'⟩ := List.forall_mem_cons.1 hfits
    obtain ⟨hfirst, hsingle'⟩ := List.pairwise_cons.1 hsingle
    obtain ⟨hnot, hseen'⟩ := List.forall_mem_cons.1 hseen
    obtain rfl : k = .text name := hk
    rcases lookup_cases h name with ⟨hnone, hother⟩ | ⟨f, p, hsome, hp, rfl, hf⟩
    · obtain ⟨seen', hread, hsub, hall⟩ := ih hfits' hsingle' seen hseen'
      refine ⟨seen', ?_, hsub, ?_⟩
      · rw [readMembers, Reading.Key.read]
        simp only [hnone, hskip, hread]
      · intro p hp m hm hmp
        rcases List.mem_cons.1 hm with rfl | hm
        · exact (hother p hp (Key.text.inj hmp).symm).elim
        · exact hall p hp m hm hmp
    · obtain ⟨set, hdecode, hset⟩ := hf.decode r hskip (hstands p hp rfl)
      have hnew : p.name ∉ seen := fun hx => hnot p.name hx rfl
      have hlater : ∀ m ∈ ms, ∀ n ∈ p.name :: seen, m.1 ≠ .text n := by
        intro m hm n hn
        rcases List.mem_cons.1 hn with rfl | hn
        · intro hx
          exact hfirst m hm hx.symm p hp rfl
        · exact hseen' m hm n hn
      obtain ⟨seen', hread, hsub, hall⟩ := ih hfits' hsingle' (p.name :: seen) hlater
      refine ⟨seen', ?_, fun n hn => hsub (List.mem_cons_of_mem p.name hn), ?_⟩
      · rw [readMembers, Reading.Key.read]
        simp only [hsome, hnew, hdecode, hset, hread, if_false]
      · intro q hq m hm hmq
        rcases List.mem_cons.1 hm with rfl | hm
        · exact hsub (Key.text.inj hmq ▸ List.mem_cons_self)
        · exact hall q hq m hm hmq

theorem missingFrom_ok {fields : List (Field δ)} (expected : String)
    (h : List.Forall₂ (Fills draft) fields parts) (hlack : ∀ p ∈ parts, p.canLack) (i : Nat) :
    missingFrom expected i fields = .ok () := by
  induction h generalizing i with
  | nil => rfl
  | cons hf _ ih =>
    obtain ⟨hp, hps⟩ := List.forall_mem_cons.1 hlack
    rw [missingFrom, if_pos (hf.optional hp)]
    exact ih hps (i + 1)

/-- An array fills in the fields from the first on. -/
theorem readItems_listed {fields : List (Field δ)} {items : List Reading} (expected : String)
    (hl : Listed parts items) (h : List.Forall₂ (Fills draft) fields parts)
    (hskip : ∀ r ∈ items, r.skip = .ok ()) : ∀ (i : Nat) (seen : List String),
      ∃ seen', readItems expected .closed i (draft seen) fields items = .ok (draft seen') ∧
        seen ⊆ seen' ∧ ∀ p ∈ parts, p.name ∈ seen' ∨ p.canLack := by
  induction hl generalizing fields with
  | rest hlack =>
    intro i seen
    refine ⟨seen, ?_, List.Subset.refl seen, fun p hp => .inr (hlack p hp)⟩
    cases h with
    | nil => rfl
    | @cons f p fs ps hf hfs =>
      have hmissing := missingFrom_ok expected (.cons hf hfs) hlack i
      simp only [readItems, Ending.ofList, hmissing, Except.map]
  | @item p ps r rs hr hl ih =>
    intro i seen
    cases h with
    | cons hf hfs =>
      obtain ⟨hskip, hskips⟩ := List.forall_mem_cons.1 hskip
      obtain ⟨set, hdecode, hset⟩ := hf.decode _ hskip hr
      obtain ⟨seen', hread, hsub, hall⟩ := ih hfs hskips (i + 1) (p.name :: seen)
      refine ⟨seen', ?_, fun n hn => hsub (List.mem_cons_of_mem _ hn), ?_⟩
      · simp only [readItems, hdecode, hset, hread]
      · exact List.forall_mem_cons.2 ⟨.inl (hsub List.mem_cons_self), hall⟩

theorem decode_closed (s : Record δ ρ) (ms : List (Key × Reading)) :
    s.decode (.object ms .closed) = (readMembers s.fields [] s.empty ms).bind s.finish := by
  rw [decode]
  cases readMembers s.fields [] s.empty ms <;> rfl

/-- Each form of a value is read as the value. -/
theorem Reads.decode_form (h : s.Reads parts draft v) {r : Reading} (hr : Form parts r)
    (hskip : r.skip = .ok ()) : s.decode r = .ok v := by
  cases hr with
  | object hk hu hp =>
    have hskip := Reading.skip_of_mem_members hskip
    have hfits := fun m hm => fits_of_perm h.distinct hk hu hp hm (hskip m hm)
    obtain ⟨seen, hread, -, hall⟩ := readMembers_fits h.fields hfits
      (single_of_perm h.distinct hk hu hp) [] (fun _ _ _ hn => (List.not_mem_nil hn).elim)
    rw [decode_closed, h.empty, hread]
    refine h.finish seen fun p hmem => ?_
    rcases hk.covers p hmem with ⟨m, hm, hmp⟩ | hlack
    · exact .inl (hall p hmem m (hp.mem_iff.2 (List.mem_append_left _ hm)) hmp)
    · exact .inr hlack
  | array hl =>
    obtain ⟨seen, hread, -, hall⟩ := readItems_listed s.expectation hl h.fields
      (Reading.skip_of_mem_items hskip) 0 []
    rw [decode, h.empty, hread]
    exact h.finish seen hall

variable {needs : List Need} {fields : List (Field δ)}

/-- A field in whose place nothing may be missing. -/
structure Refuses (f : Field δ) (n : Need) : Prop where
  name : f.name = n.name
  decode : ∀ r, n.lacks r → ∃ e, f.decode r = .error e

/-- A field that keeps what is said of drafts. -/
def Keeps (unset : δ → Prop) (f : Field δ) : Prop :=
  ∀ r set, f.decode r = .ok set → ∀ d, unset d → unset (set d)

/-- Without the field of this name no record is made: the draft stays as the others leave it, and
that is not enough. -/
def Requires (s : Record δ ρ) (name : String) : Prop :=
  ∃ unset : δ → Prop, unset s.empty ∧ (∀ f ∈ s.fields, f.name = name ∨ Keeps unset f) ∧
    ∀ d, unset d → ∃ e, s.finish d = .error e

theorem keeps_of {α : Type} {name : String} {isOptional : Bool} {d : Decoder α}
    {set : α → δ → δ} {unset : δ → Prop} (h : ∀ a d, unset d → unset (set a d)) :
    Keeps unset (.of name isOptional d set) := by
  intro r set' hr
  change (d r).map set = .ok set' at hr
  cases hd : d r with
  | error e =>
    rw [hd] at hr
    cases hr
  | ok a =>
    rw [hd] at hr
    cases hr
    exact h a

theorem refuses_of {α : Type} {name : String} {isOptional isRequired : Bool} {d : Decoder α}
    {set : α → δ → δ} {lacks : Reading → Prop} (h : ∀ r, lacks r → ∃ e, d r = .error e) :
    Refuses (.of name isOptional d set) ⟨name, isRequired, lacks⟩ := by
  refine ⟨rfl, fun r hr => ?_⟩
  obtain ⟨e, he⟩ := h r hr
  refine ⟨e, ?_⟩
  change (d r).map set = _
  rw [he]
  rfl

theorem refuses_value {α : Type} {name : String} {isOptional isRequired : Bool} {d : Decoder α}
    {set : α → δ → δ} : Refuses (.of name isOptional d set) (.value name isRequired) :=
  refuses_of nofun

structure Asks (s : Record δ ρ) (needs : List Need) : Prop where
  fields : List.Forall₂ Refuses s.fields needs
  distinct : (needs.map Need.name).Nodup
  required : ∀ n ∈ needs, n.isRequired = true → Requires s n.name

theorem mem_of_lookup {name : String} {f : Field δ} (h : lookup fields name = some f) :
    f ∈ fields ∧ f.name = name := by
  have hname := List.find?_some h
  exact ⟨List.mem_of_find?_eq_some h, of_decide_eq_true hname⟩

theorem exists_refuses (h : List.Forall₂ Refuses fields needs) (hd : (needs.map Need.name).Nodup)
    {n : Need} (hn : n ∈ needs) : ∃ f, lookup fields n.name = some f ∧ Refuses f n := by
  induction h with
  | nil => cases hn
  | @cons f n' fs ns hf _ ih =>
    obtain ⟨hfirst, hd⟩ := List.nodup_cons.1 hd
    rcases List.mem_cons.1 hn with rfl | hn
    · exact ⟨f, by simp [lookup, hf.name], hf⟩
    · have hname : f.name ≠ n.name := fun hx =>
        hfirst (hf.name ▸ hx ▸ List.mem_map_of_mem hn)
      obtain ⟨f', hlook, hf'⟩ := ih hd hn
      refine ⟨f', ?_, hf'⟩
      rw [← hlook]
      simp [lookup, hname]

theorem exists_refuses_at (h : List.Forall₂ Refuses fields needs) {n : Need} {i : Nat}
    (hn : needs[i]? = some n) : ∃ f, fields[i]? = some f ∧ Refuses f n := by
  induction h generalizing i with
  | nil => cases hn
  | @cons f _ _ _ hf _ ih =>
    cases i with
    | zero =>
      cases hn
      exact ⟨f, rfl, hf⟩
    | succ i => exact ih hn

theorem eq_text_of_read {k : Key} {name : String} (h : Reading.Key.read k = .ok name) :
    k = .text name := by
  cases k <;> cases h
  rfl

/-- What other fields leave unset is unset when all members are read. -/
theorem readMembers_unset {name : String} {unset : δ → Prop}
    (hset : ∀ f ∈ fields, f.name = name ∨ Keeps unset f)
    {ms : List (Key × Reading)} (hms : ∀ m ∈ ms, m.1 ≠ .text name) {seen : List String} {d d' : δ}
    (hd : unset d) (h : readMembers fields seen d ms = .ok d') : unset d' := by
  fun_induction readMembers fields seen d ms with
  | case1 =>
    cases h
    exact hd
  | case4 _ _ _ _ _ _ _ _ _ ih => exact ih (List.forall_mem_cons.1 hms).2 hd h
  | case7 seen d k r ms n hk f hf _ set hr ih =>
    obtain ⟨hm, hms⟩ := List.forall_mem_cons.1 hms
    obtain ⟨hmem, hname⟩ := mem_of_lookup hf
    have hother : f.name ≠ name := by
      rintro rfl
      exact hm (hname ▸ eq_text_of_read hk)
    exact ih hms ((hset f hmem).resolve_left hother r set hr d hd) h
  | case2 | case3 | case5 | case6 => cases h

/-- A member that cannot be read is not passed over. -/
theorem readMembers_error {name : String} {f : Field δ} {r : Reading} {e : Error}
    (hf : lookup fields name = some f) (hr : f.decode r = .error e) {ms : List (Key × Reading)}
    (hm : (.text name, r) ∈ ms) (seen : List String) (d : δ) :
    ∃ e, readMembers fields seen d ms = .error e := by
  fun_induction readMembers fields seen d ms with
  | case1 => cases hm
  | case4 seen d k r' ms n hk hnone _ ih =>
    rcases List.mem_cons.1 hm with hx | hm
    · cases hx
      cases hk
      rw [hf] at hnone
      cases hnone
    · exact ih hm
  | case7 seen d k r' ms n hk f' hf' _ set hr' ih =>
    rcases List.mem_cons.1 hm with hx | hm
    · cases hx
      cases hk
      cases hf.symm.trans hf'
      cases hr.symm.trans hr'
    · exact ih hm
  | case2 | case3 | case5 | case6 => exact ⟨_, rfl⟩

/-- An item that cannot be read is not passed over. -/
theorem readItems_error {expected : String} {ending : Ending} {f : Field δ} {r : Reading}
    {e : Error} (hr : f.decode r = .error e) {items : List Reading} {j : Nat}
    (hf : fields[j]? = some f) (hi : items[j]? = some r) (i : Nat) (d : δ) :
    ∃ e, readItems expected ending i d fields items = .error e := by
  induction fields generalizing items i j d with
  | nil => cases hf
  | cons f' fs ih =>
    cases items with
    | nil => cases hi
    | cons r' rs =>
      rw [readItems]
      cases hd : f'.decode r' with
      | error e => exact ⟨e, rfl⟩
      | ok set =>
        cases j with
        | zero =>
          cases hf
          cases hi
          cases hr.symm.trans hd
        | succ j => exact ih hf hi (i + 1) (set d)

/-- From a reading in which something is missing no record is made. -/
theorem Asks.decode_incomplete (h : s.Asks needs) {r : Reading} (hr : Incomplete needs r) :
    ∃ e, s.decode r = .error e := by
  cases hr with
  | @missing n ms e hn hrequired hms =>
    obtain ⟨unset, hempty, hset, hfinish⟩ := h.required n hn hrequired
    rw [decode]
    cases hread : readMembers s.fields [] s.empty ms with
    | error e => exact ⟨e, rfl⟩
    | ok d =>
      obtain ⟨e', hd⟩ := hfinish d (readMembers_unset hset hms hempty hread)
      change ∃ e', (do e.ofObject; s.finish d) = .error e'
      cases e.ofObject with
      | error e => exact ⟨e, rfl⟩
      | ok => exact ⟨e', hd⟩
  | @member n ms e r hn hm hlacks =>
    obtain ⟨f, hf, hrefuses⟩ := exists_refuses h.fields h.distinct hn
    obtain ⟨e', he'⟩ := hrefuses.decode r hlacks
    obtain ⟨e'', hread⟩ := readMembers_error hf he' hm [] s.empty
    rw [decode, hread]
    exact ⟨e'', rfl⟩
  | @item i n items e r hn hi hlacks =>
    obtain ⟨f, hf, hrefuses⟩ := exists_refuses_at h.fields hn
    obtain ⟨e', he'⟩ := hrefuses.decode r hlacks
    obtain ⟨e'', hread⟩ := readItems_error he' hf hi 0 s.empty
    rw [decode, hread]
    exact ⟨e'', rfl⟩

end Record

/-- Of the JSON texts, those that show a form of a value are read as the value, and those in which
something is missing are not read. -/
structure ReadsByMembers {α ε : Type} (read : String → Except ε α) (parts : α → List Part)
    (needs : List Need) : Prop where
  form : ∀ s r v, Grammar.Text s r → Form (parts v) r → read s = .ok v
  incomplete : ∀ s r, Grammar.Text s r → Incomplete needs r → ∃ e, read s = .error e

theorem readsByMembers {δ ρ : Type} {s : Record δ ρ} {parts : ρ → List Part}
    {draft : ρ → List String → δ} {needs : List Need} (hreads : ∀ v, s.Reads (parts v) (draft v) v)
    (hasks : s.Asks needs) : ReadsByMembers (Json.decode s.decode) parts needs where
  form _ _ v ht hr := by
    rw [decode_text ht]
    exact (hreads v).decode_form hr (Reading.skip_text ht)
  incomplete _ _ ht hr := by
    rw [decode_text ht]
    exact hasks.decode_incomplete hr

/-- What is done with the fault of a text changes nothing of it. -/
theorem ReadsByMembers.mapError {α ε ε' : Type} {read : String → Except ε α}
    {parts : α → List Part} {needs : List Need} (h : ReadsByMembers read parts needs)
    (f : ε → ε') : ReadsByMembers (fun s => (read s).mapError f) parts needs where
  form s r v ht hr := by
    rw [h.form s r v ht hr]
    rfl
  incomplete s r ht hr := by
    obtain ⟨e, he⟩ := h.incomplete s r ht hr
    refine ⟨f e, ?_⟩
    rw [he]
    rfl

end ScatterGather.Json
