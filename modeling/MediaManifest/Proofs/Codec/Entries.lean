import MediaManifest.Codec.Decoding
import MediaManifest.Support.Except

/-!
# Identifiers of decoded entries

An element has the identifier that is written in its entry.  The keys of an
entry are read one after the other; only the key of the identifier sets it,
and a second one is refused.
-/

namespace MediaManifest.Codec

open Json (Tree Value)

theorem CommonKey.ofName?_eq_id_iff {name : String} :
    CommonKey.ofName? name = some .id ↔ name = "id" := by
  constructor
  · intro hkey
    unfold CommonKey.ofName? at hkey
    split at hkey
    · rfl
    all_goals cases hkey
  · rintro rfl
    rfl

variable {e after : Element} {p q : Partial} {room : Nat} {name : String} {tree : Tree}
  {value : Value}

theorem id_readCommon (hread : readCommon e (Tree.ofValue value) .id = .ok after) :
    after.id = value.text? := by
  obtain ⟨id, hid, rfl⟩ := Except.map_eq_ok_iff.mp hread
  cases value with
  | null => exact (Except.ok.inj hid).symm
  | text s => exact (Except.ok.inj hid).symm
  | bool b => cases hid
  | number n => cases hid
  | list items => cases hid
  | object entries => cases hid

theorem id_readCommon_of_ne {key : CommonKey} (hkey : key ≠ .id)
    (hread : readCommon e tree key = .ok after) : after.id = e.id := by
  cases key with
  | id => exact absurd rfl hkey
  | flavor =>
      obtain ⟨_, _, rfl⟩ := Except.map_eq_ok_iff.mp hread
      rfl
  | tags =>
      obtain ⟨_, _, rfl⟩ := Except.map_eq_ok_iff.mp hread
      rfl
  | checksum =>
      obtain ⟨_, _, rfl⟩ := Except.map_eq_ok_iff.mp hread
      rfl
  | reference =>
      obtain ⟨_, _, rfl⟩ := Except.map_eq_ok_iff.mp hread
      rfl
  | uri =>
      obtain ⟨_, _, rfl⟩ := Except.map_eq_ok_iff.mp hread
      rfl
  | mimeType =>
      obtain ⟨_, _, rfl⟩ := Except.map_eq_ok_iff.mp hread
      rfl

/-- The key `id` is read once and sets the identifier. -/
theorem readEntry_id (hread : p.readEntry room "id" (Tree.ofValue value) = .ok q) :
    .id ∉ p.met ∧ .id ∈ q.met ∧ q.element.id = value.text? := by
  rw [Partial.readEntry, CommonKey.ofName?_eq_id_iff.mpr rfl] at hread
  simp only at hread
  split at hread
  · cases hread
  · next hmet =>
    obtain ⟨after, hafter, rfl⟩ := Except.map_eq_ok_iff.mp hread
    exact ⟨by simpa using hmet, List.mem_cons_self, id_readCommon hafter⟩

/-- Keys other than `id` leave the identifier alone. -/
theorem readEntry_of_ne (hname : name ≠ "id") (hread : p.readEntry room name tree = .ok q) :
    (.id ∈ q.met ↔ .id ∈ p.met) ∧ q.element.id = p.element.id := by
  unfold Partial.readEntry at hread
  split at hread
  · next key hkey =>
    have hne : key ≠ .id := by
      rintro rfl
      exact hname (CommonKey.ofName?_eq_id_iff.mp hkey)
    split at hread
    · cases hread
    · obtain ⟨after, hafter, rfl⟩ := Except.map_eq_ok_iff.mp hread
      exact ⟨by simp [hne.symm], id_readCommon_of_ne hne hafter⟩
  · obtain ⟨_, _, rfl⟩ := Except.map_eq_ok_iff.mp hread
    exact ⟨Iff.rfl, rfl⟩

theorem readEntries_cons_iff {entries : List (String × Value)} :
    p.readEntries room (Tree.ofEntries ((name, value) :: entries)) = .ok q ↔
      ∃ next, p.readEntry room name (Tree.ofValue value) = .ok next ∧
        next.readEntries room (Tree.ofEntries entries) = .ok q := by
  have hstep : p.readEntries room (Tree.ofEntries ((name, value) :: entries)) =
      p.readEntry room name (Tree.ofValue value) >>= fun next =>
        next.readEntries room (Tree.ofEntries entries) := rfl
  rw [hstep]
  exact Except.bind_eq_ok_iff

theorem id_readEntries_of_met {entries : List (String × Value)} (hmet : .id ∈ p.met)
    (hread : p.readEntries room (Tree.ofEntries entries) = .ok q) :
    q.element.id = p.element.id := by
  induction entries generalizing p with
  | nil => rw [Except.ok.inj hread]
  | cons entry entries ih =>
      obtain ⟨name, value⟩ := entry
      obtain ⟨next, hnext, hrest⟩ := readEntries_cons_iff.mp hread
      by_cases hname : name = "id"
      · subst hname
        exact absurd hmet (readEntry_id hnext).1
      · obtain ⟨hkeep, hid⟩ := readEntry_of_ne hname hnext
        rw [ih (hkeep.mpr hmet) hrest, hid]

theorem id_readEntries {entries : List (String × Value)} (hmet : .id ∉ p.met)
    (hread : p.readEntries room (Tree.ofEntries entries) = .ok q) :
    q.element.id = (Value.lookup "id" entries).elim p.element.id Value.text? := by
  induction entries generalizing p with
  | nil =>
      rw [← Except.ok.inj hread]
      rfl
  | cons entry entries ih =>
      obtain ⟨name, value⟩ := entry
      obtain ⟨next, hnext, hrest⟩ := readEntries_cons_iff.mp hread
      by_cases hname : name = "id"
      · subst hname
        -- Behind the first key of the identifier there is no other one.
        obtain ⟨-, hseen, hid⟩ := readEntry_id hnext
        rw [id_readEntries_of_met hseen hrest, hid, Value.lookup, if_pos rfl, Option.elim_some]
      · obtain ⟨hkeep, hid⟩ := readEntry_of_ne hname hnext
        rw [ih (fun hseen => hmet (hkeep.mp hseen)) hrest, hid, Value.lookup, if_neg hname]

/-- An element `e` that is decoded from the entry `raw` has the identifier that is written in it. -/
theorem id_of_decodeRaw {raw : Value} (hdecode : decodeRaw raw = .ok e) :
    e.id = textField? "id" raw := by
  unfold decodeRaw at hdecode
  split at hdecode
  · cases hdecode
  · split at hdecode
    · cases hdecode
    · have hread := Except.mapError_eq_ok_iff.mp hdecode
      cases raw with
      | object entries =>
          obtain ⟨p, hp, hrest⟩ := Except.bind_eq_ok_iff.mp hread
          obtain ⟨_, _, hrest⟩ := Except.bind_eq_ok_iff.mp hrest
          obtain ⟨body, _, hbody⟩ := Except.bind_eq_ok_iff.mp hrest
          obtain rfl := Except.ok.inj hbody
          have hid := id_readEntries List.not_mem_nil hp
          rw [textField?, Value.field?]
          cases hlookup : Value.lookup "id" entries with
          | none =>
              rw [hlookup] at hid
              exact hid
          | some value =>
              rw [hlookup] at hid
              exact hid
      | null => cases hread
      | bool b => cases hread
      | number n => cases hread
      | text s => cases hread
      | list items => cases hread

end MediaManifest.Codec
