import ScatterGather.Json.Decode
import ScatterGather.Proofs.Json.Token

/-! A text of the grammar is read as the grammar says, and whoever looks only at its grammar may
pass over it. -/
namespace ScatterGather.Json.Reading

open Token Grammar

/-- What a text makes of a reading that is under way. -/
def feedChars (p : Progress) (cs : List Char) : Progress := (Token.ofChars cs).foldl feed p

def Due.takesValue : Due → Bool
  | .value => true
  | .firstItem => true
  | .item => true
  | _ => false

def Due.takesKey : Due → Bool
  | .firstKey => true
  | .key => true
  | _ => false

variable {p : Progress} {t : Token} {due : Due} {s : List Open} {c : Char} {gs r r' : List Char}

theorem feedChars_gaps (hg : Gaps gs) : feedChars p (gs ++ r) = feedChars p r := by
  rw [feedChars, ofChars_gaps hg]
  rfl

theorem feedChars_scan (hc : isGap c = false) (hs : scan c r = (t, r')) :
    feedChars p (c :: r) = feedChars (feed p t) r' := by
  rw [feedChars, ofChars_scan hc hs]
  rfl

theorem feedChars_mark (hc : mark? c = some t) : feedChars p (c :: r) = feedChars (feed p t) r := by
  obtain ⟨hg, hs⟩ := scan_mark (r := r) hc
  exact feedChars_scan hg hs

theorem feedChars_quoted {cs : List Char} {k : Except Error String} (h : Quoted cs k)
    (r : List Char) : feedChars p (cs ++ r) = feedChars (feed p (.string k)) r := by
  rw [feedChars, ofChars_quoted h]
  rfl

theorem feedChars_number {cs : List Char} {n : Numeral} (h : Grammar.Number cs n)
    (hr : Delimited r) : feedChars p (cs ++ r) = feedChars (feed p (.number n.value)) r := by
  rw [feedChars, ofChars_number h hr]
  rfl

theorem feed_value (hd : due.takesValue = true) (ht : t ≠ .closeArray) :
    feed (.within s due) t = onValue s t := by
  cases due with
  | value => rfl
  | firstItem | item =>
    cases t with
    | closeArray => exact (ht rfl).elim
    | _ => rfl
  | firstKey | key | colon | separator => cases hd

theorem feed_key (hd : due.takesKey = true) (k : Except Error String)
    (members : List (Key × Reading)) :
    feed (.within (.object members :: s) due) (.string k) =
      .within (.member (.ofString k) members :: s) .colon := by
  cases due with
  | firstKey | key => rfl
  | value | firstItem | item | colon | separator => cases hd

mutual

theorem feedChars_value : ∀ {cs : List Char} {v : Reading}, Value cs v → ∀ (s : List Open)
    (due : Due) (rest : List Char), due.takesValue = true → Delimited rest →
      feedChars (.within s due) (cs ++ rest) = feedChars (put v s) rest
  | _, _, .null, s, due, rest, hd, _ => by
    have hs : scan 'n' ('u' :: 'l' :: 'l' :: rest) = (.null, rest) := rfl
    exact (feedChars_scan rfl hs).trans (by rw [feed_value hd (by nofun)]; rfl)
  | _, _, .true, s, due, rest, hd, _ => by
    have hs : scan 't' ('r' :: 'u' :: 'e' :: rest) = (.bool true, rest) := rfl
    exact (feedChars_scan rfl hs).trans (by rw [feed_value hd (by nofun)]; rfl)
  | _, _, .false, s, due, rest, hd, _ => by
    have hs : scan 'f' ('a' :: 'l' :: 's' :: 'e' :: rest) = (.bool false, rest) := rfl
    exact (feedChars_scan rfl hs).trans (by rw [feed_value hd (by nofun)]; rfl)
  | _, _, .number h, s, due, rest, hd, hr => by
    rw [feedChars_number h hr, feed_value hd (by nofun)]
    rfl
  | _, _, .string h, s, due, rest, hd, _ => by
    rw [feedChars_quoted h, feed_value hd (by nofun)]
    rfl
  | _, _, .emptyArray hg, s, due, rest, hd, _ => by
    simp only [List.cons_append, List.append_assoc, List.nil_append]
    rw [feedChars_mark (c := '[') rfl, feed_value hd (by nofun), onValue, feedChars_gaps hg]
    exact feedChars_mark (c := ']') rfl
  | _, _, .array h, s, due, rest, hd, _ => by
    simp only [List.cons_append, List.append_assoc, List.nil_append]
    rw [feedChars_mark (c := '[') rfl, feed_value hd (by nofun), onValue,
      feedChars_elements h [] s .firstItem _ rfl (delimited_cons rfl (by decide)),
      feedChars_mark (c := ']') rfl, List.append_nil, feed, onSeparator, close,
      List.reverse_reverse]
  | _, _, .emptyObject hg, s, due, rest, hd, _ => by
    simp only [List.cons_append, List.append_assoc, List.nil_append]
    rw [feedChars_mark (c := '\x7b') rfl, feed_value hd (by nofun), onValue, feedChars_gaps hg]
    exact feedChars_mark (c := '\x7d') rfl
  | _, _, .object h, s, due, rest, hd, _ => by
    simp only [List.cons_append, List.append_assoc, List.nil_append]
    rw [feedChars_mark (c := '\x7b') rfl, feed_value hd (by nofun), onValue,
      feedChars_members h [] s .firstKey _ rfl (delimited_cons rfl (by decide)),
      feedChars_mark (c := '\x7d') rfl, List.append_nil, feed, onSeparator, close,
      List.reverse_reverse]

theorem feedChars_element : ∀ {cs : List Char} {v : Reading}, Element cs v → ∀ (s : List Open)
    (due : Due) (rest : List Char), due.takesValue = true → Delimited rest →
      feedChars (.within s due) (cs ++ rest) = feedChars (put v s) rest
  | _, _, .value hg h hg', s, due, rest, hd, hr => by
    simp only [List.append_assoc]
    rw [feedChars_gaps hg, feedChars_value h s due _ hd (delimited_gaps hg' hr),
      feedChars_gaps hg']

theorem feedChars_elements : ∀ {cs : List Char} {vs : List Reading}, Elements cs vs →
    ∀ (items : List Reading) (s : List Open) (due : Due) (rest : List Char),
      due.takesValue = true → Delimited rest →
      feedChars (.within (.array items :: s) due) (cs ++ rest) =
        feedChars (.within (.array (vs.reverse ++ items) :: s) .separator) rest
  | _, _, .last h, items, s, due, rest, hd, hr => feedChars_element h _ due rest hd hr
  | _, _, .more h hs, items, s, due, rest, hd, hr => by
    simp only [List.cons_append, List.append_assoc]
    rw [feedChars_element h _ due _ hd (delimited_cons rfl (by decide)), put,
      feedChars_mark (c := ',') rfl, feed, onSeparator, feedChars_elements hs _ s .item rest rfl hr,
      List.reverse_cons, List.append_assoc]
    rfl

theorem feedChars_member : ∀ {cs : List Char} {m : Key × Reading}, Member cs m →
    ∀ (members : List (Key × Reading)) (s : List Open) (due : Due) (rest : List Char),
      due.takesKey = true → Delimited rest →
      feedChars (.within (.object members :: s) due) (cs ++ rest) =
        feedChars (.within (.object (m :: members) :: s) .separator) rest
  | _, _, .pair hg hk hg' h, members, s, due, rest, hd, hr => by
    simp only [List.cons_append, List.append_assoc]
    rw [feedChars_gaps hg, feedChars_quoted hk, feed_key hd, feedChars_gaps hg',
      feedChars_mark (c := ':') rfl, feed, feedChars_element h _ .value rest rfl hr]
    rfl

theorem feedChars_members : ∀ {cs : List Char} {ms : List (Key × Reading)}, Members cs ms →
    ∀ (members : List (Key × Reading)) (s : List Open) (due : Due) (rest : List Char),
      due.takesKey = true → Delimited rest →
      feedChars (.within (.object members :: s) due) (cs ++ rest) =
        feedChars (.within (.object (ms.reverse ++ members) :: s) .separator) rest
  | _, _, .last h, members, s, due, rest, hd, hr => feedChars_member h members s due rest hd hr
  | _, _, .more h hs, members, s, due, rest, hd, hr => by
    simp only [List.cons_append, List.append_assoc]
    rw [feedChars_member h members s due _ hd (delimited_cons rfl (by decide)),
      feedChars_mark (c := ',') rfl, feed, onSeparator, feedChars_members hs _ s .key rest rfl hr,
      List.reverse_cons, List.append_assoc]
    rfl

end

theorem ofString_text {s : String} {v : Reading} (h : Text s v) : ofString s = (v, false) := by
  have hfeed := feedChars_element h [] .value [] rfl delimited_nil
  rw [List.append_nil] at hfeed
  change (feedChars _ _).finish = _
  rw [hfeed, feedChars, ofChars]
  rfl

theorem ofString_ne_absent (k : Except Error String) : Key.ofString k ≠ .absent := by
  cases k <;> nofun

mutual

theorem skip_value : ∀ {cs : List Char} {v : Reading}, Value cs v → v.skip = .ok ()
  | _, _, .null => by simp only [skip]
  | _, _, .true => by simp only [skip]
  | _, _, .false => by simp only [skip]
  | _, _, .number _ => by simp only [skip]
  | _, _, .string _ => by simp only [skip]
  | _, _, .emptyArray _ => by
    rw [skip, skipItems]
    rfl
  | _, _, .emptyObject _ => by
    rw [skip, skipMembers]
    rfl
  | _, _, .array h => by
    rw [skip, skip_elements h]
    rfl
  | _, _, .object h => by
    rw [skip, skip_members h]
    rfl

theorem skip_element : ∀ {cs : List Char} {v : Reading}, Element cs v → v.skip = .ok ()
  | _, _, .value _ h _ => skip_value h

theorem skip_elements : ∀ {cs : List Char} {vs : List Reading}, Elements cs vs →
    skipItems vs = .ok ()
  | _, _, .last h => by
    rw [skipItems, skip_element h]
    rfl
  | _, _, .more h hs => by
    rw [skipItems, skip_element h]
    exact skip_elements hs

theorem skip_member : ∀ {cs : List Char} {m : Key × Reading}, Member cs m →
    m.1 ≠ .absent ∧ m.2.skip = .ok ()
  | _, _, .pair (k := k) _ _ _ h => ⟨ofString_ne_absent k, skip_element h⟩

theorem skip_members : ∀ {cs : List Char} {ms : List (Key × Reading)}, Members cs ms →
    skipMembers ms = .ok ()
  | _, _, .last h => by
    obtain ⟨hk, hs⟩ := skip_member h
    rw [skipMembers, if_neg hk, hs]
    rfl
  | _, _, .more h hs => by
    obtain ⟨hk, hm⟩ := skip_member h
    rw [skipMembers, if_neg hk, hm]
    exact skip_members hs

end

/-- Whatever a text of the grammar says can be passed over. -/
theorem skip_text {s : String} {v : Reading} (h : Text s v) : v.skip = .ok () := skip_element h

variable {items : List Reading} {members : List (Key × Reading)} {e : Ending}

theorem both_ok {x y : Except Error Unit} (h : (do x; y) = .ok ()) : x = .ok () ∧ y = .ok () := by
  cases x with
  | error e => cases h
  | ok => exact ⟨rfl, h⟩

theorem skip_of_mem_items (h : (array items e).skip = .ok ()) : ∀ v ∈ items, v.skip = .ok () := by
  rw [skip] at h
  replace h := (both_ok h).1
  induction items with
  | nil => exact fun _ hv => (List.not_mem_nil hv).elim
  | cons v vs ih =>
    rw [skipItems] at h
    obtain ⟨hv, hvs⟩ := both_ok h
    exact List.forall_mem_cons.2 ⟨hv, ih hvs⟩

theorem skip_of_mem_members (h : (object members e).skip = .ok ()) :
    ∀ m ∈ members, m.2.skip = .ok () := by
  rw [skip] at h
  replace h := (both_ok h).1
  induction members with
  | nil => exact fun _ hm => (List.not_mem_nil hm).elim
  | cons m ms ih =>
    rw [skipMembers] at h
    split at h
    · cases h
    · obtain ⟨hm, hms⟩ := both_ok h
      exact List.forall_mem_cons.2 ⟨hm, ih hms⟩

end ScatterGather.Json.Reading
