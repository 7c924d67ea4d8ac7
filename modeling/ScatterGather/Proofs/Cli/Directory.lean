import ScatterGather.Cli.Directory
import ScatterGather.Proofs.StringMap

/-! What is written to a path is found there again. -/
namespace ScatterGather.Cli.Directory

variable {d d' : Directory} {p p' : Place} {name path content : String} {names : List String}
  {t : Target}

/-- Where a path starts: at the root, or in the working directory. -/
def origin (path : String) : Place := if path.toList.head? = some '/' then [""] else []

def namesIn (path : String) : List String := (path.splitOn "/").filter (· ≠ "")

theorem target_eq (d : Directory) (path : String) : d.target path =
    if path = "" then .error .notFound
    else if longestPath < path.utf8ByteSize then .error .nameTooLong
    else ((namesIn path).dropLast.foldlM d.enter (origin path)).map fun place =>
      ⟨place, (namesIn path).getLast?.getD ".", path.toList.getLast? = some '/'⟩ := by
  unfold target
  by_cases hempty : path = ""
  · rw [if_pos hempty, if_pos hempty]
    rfl
  rw [if_neg hempty, if_neg hempty]
  by_cases hlong : longestPath < path.utf8ByteSize
  · rw [if_pos hlong, if_pos hlong]
    rfl
  · rw [if_neg hlong, if_neg hlong]
    rfl

/-- A path that leads to a name for a file, whether or not there is one yet. -/
structure Names (d : Directory) (path : String) (t : Target) : Prop where
  target : d.target path = .ok t
  file : t.wantsDirectory = false
  last : isLink t.last = false
  free : d.isDirectory (t.last :: t.place) = false
  short : t.last.utf8ByteSize ≤ longestName

theorem write_of_target (ht : d.target path = .ok t) (content : String) : d.write path content =
    if t.wantsDirectory ∨ isLink t.last ∨ d.isDirectory (t.last :: t.place) then
      .error .isDirectory
    else if longestName < t.last.utf8ByteSize then .error .nameTooLong
    else .ok (d.insert (nameOf (t.last :: t.place)) content) := by
  simp only [write, ht, bind, Except.bind]
  by_cases hd : t.wantsDirectory ∨ isLink t.last ∨ d.isDirectory (t.last :: t.place)
  · rw [if_pos hd, if_pos hd]
    rfl
  rw [if_neg hd, if_neg hd]
  by_cases hlong : longestName < t.last.utf8ByteSize
  · rw [if_pos hlong, if_pos hlong]
    rfl
  · rw [if_neg hlong, if_neg hlong]
    rfl

theorem write_eq_ok : d.write path content = .ok d' ↔
    ∃ t, Names d path t ∧ d' = d.insert (nameOf (t.last :: t.place)) content := by
  constructor
  · intro h
    cases ht : d.target path with
    | error e => simp [write, ht, bind, Except.bind] at h
    | ok t =>
      rw [write_of_target ht] at h
      split at h
      · cases h
      split at h
      · cases h
      · rename_i hd hlong
        simp only [not_or, Bool.not_eq_true] at hd
        exact ⟨t, ⟨ht, hd.1, hd.2.1, hd.2.2, Nat.not_lt.1 hlong⟩, (Except.ok.inj h).symm⟩
  · rintro ⟨t, h, rfl⟩
    rw [write_of_target h.target, h.file, h.last, h.free, if_neg (by simp),
      if_neg (Nat.not_lt.2 h.short)]

theorem find_of_names (h : Names d path t) : d.find path =
    match d.content? (t.last :: t.place) with
    | some content => .ok content
    | none => .error .notFound := by
  simp [find, h.target, h.file, h.last, h.free, Nat.not_lt.2 h.short, bind, Except.bind]
  rfl

/-- All files of `d` are there in `d'` as well. -/
def Extends (d d' : Directory) : Prop := d.keys ⊆ d'.keys

theorem extends_insert (d : Directory) (name content : String) :
    Extends d (d.insert name content) := by
  intro k hk
  obtain ⟨v, hv⟩ := StringMap.mem_keys.1 hk
  rw [StringMap.mem_keys, StringMap.get?_insert]
  by_cases hn : k = name
  · exact ⟨content, if_pos hn⟩
  · exact ⟨v, (if_neg hn).trans hv⟩

theorem isDirectory_mono (h : Extends d d') (hd : d.isDirectory p = true) :
    d'.isDirectory p = true := by
  simp only [isDirectory, decide_eq_true_eq] at hd ⊢
  refine hd.imp_right (Or.imp_right (Or.imp_right (Or.imp_right fun hk => ?_)))
  rw [List.any_eq_true] at hk ⊢
  obtain ⟨k, hk, hp⟩ := hk
  exact ⟨k, h hk, hp⟩

theorem enter_mono (h : Extends d d') (he : d.enter p name = .ok p') :
    d'.enter p name = .ok p' := by
  unfold enter at he ⊢
  by_cases hself : name = "."
  · rwa [if_pos hself] at he ⊢
  rw [if_neg hself] at he ⊢
  by_cases hup : name = ".."
  · rwa [if_pos hup] at he ⊢
  rw [if_neg hup] at he ⊢
  by_cases hlong : longestName < name.utf8ByteSize
  · rw [if_pos hlong] at he
    cases he
  rw [if_neg hlong] at he ⊢
  by_cases hd : d.isDirectory (name :: p) = true
  · rw [if_pos hd] at he
    rwa [if_pos (isDirectory_mono h hd)]
  · rw [if_neg hd] at he
    split at he <;> cases he

theorem foldlM_enter_mono (h : Extends d d') (hf : names.foldlM d.enter p = .ok p') :
    names.foldlM d'.enter p = .ok p' := by
  induction names generalizing p with
  | nil => exact hf
  | cons name names ih =>
    rw [List.foldlM_cons] at hf ⊢
    cases he : d.enter p name with
    | error e =>
      rw [he] at hf
      cases hf
    | ok q =>
      rw [he] at hf
      rw [enter_mono h he]
      exact ih hf

theorem target_mono (h : Extends d d') (ht : d.target path = .ok t) : d'.target path = .ok t := by
  rw [target_eq] at ht ⊢
  by_cases hempty : path = ""
  · rw [if_pos hempty] at ht
    cases ht
  rw [if_neg hempty] at ht ⊢
  by_cases hlong : longestPath < path.utf8ByteSize
  · rw [if_pos hlong] at ht
    cases ht
  rw [if_neg hlong] at ht ⊢
  cases hf : (namesIn path).dropLast.foldlM d.enter (origin path) with
  | error e =>
    rw [hf] at ht
    cases ht
  | ok place =>
    rw [hf] at ht
    rwa [foldlM_enter_mono h hf]

/-- A new file is no directory. -/
theorem isDirectory_insert (hd : d.isDirectory p = false) (content : String) :
    isDirectory (d.insert (nameOf p) content) p = false := by
  simp only [isDirectory, decide_eq_false_iff_not, not_or] at hd ⊢
  refine ⟨hd.1, hd.2.1, hd.2.2.1, hd.2.2.2.1, ?_⟩
  have hk := hd.2.2.2.2
  rw [Bool.not_eq_true, List.any_eq_false] at hk ⊢
  intro k hmem
  obtain ⟨v, hv⟩ := StringMap.mem_keys.1 hmem
  rw [StringMap.get?_insert] at hv
  by_cases hn : k = nameOf p
  · subst hn
    intro hp
    have hle := (List.isPrefixOf_iff_prefix.1 hp).length_le
    rw [String.toList_append, List.length_append] at hle
    exact Nat.not_succ_le_self _ hle
  · rw [if_neg hn] at hv
    exact hk k (StringMap.mem_keys.2 ⟨v, hv⟩)

theorem names_insert (h : Names d path t) (content : String) :
    Names (d.insert (nameOf (t.last :: t.place)) content) path t where
  target := target_mono (extends_insert ..) h.target
  file := h.file
  last := h.last
  free := isDirectory_insert h.free content
  short := h.short

/-- A path that leads to a file, there or not yet there, and not to the null device. -/
def Writable (d : Directory) (path : String) : Prop :=
  ∃ t, Names d path t ∧ t.last :: t.place ≠ nullDevice

theorem exists_write (h : d.Writable path) (content : String) :
    ∃ d', d.write path content = .ok d' := by
  obtain ⟨t, h, -⟩ := h
  exact ⟨_, write_eq_ok.2 ⟨t, h, rfl⟩⟩

theorem read_of_write (hp : d.Writable path) (h : d.write path content = .ok d') :
    d'.read path = .ok content.toUTF8 := by
  obtain ⟨t, hn, rfl⟩ := write_eq_ok.1 h
  obtain ⟨t', hn', hnull⟩ := hp
  obtain rfl : t' = t := Except.ok.inj (hn'.target.symm.trans hn.target)
  rw [read, find_of_names (names_insert hn content), content?, if_neg hnull, StringMap.get?_insert,
    if_pos rfl]
  rfl

/-- Only the null device takes what is written and does not keep it. -/
theorem writable_of_write (h : d.write path content = .ok d') :
    d.Writable path ∨ d'.read path = .ok "".toUTF8 := by
  obtain ⟨t, hn, rfl⟩ := write_eq_ok.1 h
  by_cases hnull : t.last :: t.place = nullDevice
  · right
    rw [read, find_of_names (names_insert hn content), content?, if_pos hnull]
    rfl
  · exact .inl ⟨t, hn, hnull⟩

end ScatterGather.Cli.Directory
