import MediaManifest.FileTree
import MediaManifest.Support.Except

/-!
# Writing files

Storing a file changes what stands at one path of names (`DiffersAt`), and never
puts a file in the place of a directory or a directory in the place of a file.
So every path leads after it to where it led before, and what was written is
read back under the path that it was written to.
-/

namespace MediaManifest

open Text (Content)

namespace FileTree

variable {t u v : FileTree} {path name : String} {here names other rest : List String}
  {node : Node} {content : Content} {place : Place} {paths more : List (List String)}

/-! ## Nodes -/

@[simp] theorem here_put (t : FileTree) (names : List String) (node : Node) :
    (t.put names node).here = t.here := rfl

theorem lookup_filter_ne (hne : other ≠ names) (nodes : List (List String × Node)) :
    (nodes.filter (·.1 != names)).lookup other = nodes.lookup other := by
  induction nodes with
  | nil => rfl
  | cons entry nodes ih =>
      obtain ⟨key, node⟩ := entry
      by_cases hkey : key = names
      · subst hkey
        rw [List.filter_cons_of_neg (by simp), ih, List.lookup_cons, beq_false_of_ne hne]
      · rw [List.filter_cons_of_pos (by simpa using hkey), List.lookup_cons, List.lookup_cons, ih]

theorem node?_put_of_ne (hne : other ≠ names) (t : FileTree) (node : Node) :
    (t.put names node).node? other = t.node? other := by
  have hlookup : (t.put names node).nodes.lookup other = t.nodes.lookup other := by
    rw [put, List.lookup_cons, beq_false_of_ne hne]
    exact lookup_filter_ne hne t.nodes
  rw [node?, node?, hlookup]
  rfl

/-- Where no directory stands, the `node` that is put stands. -/
theorem node?_put_self (hfree : t.node? names ≠ some .directory) (node : Node) :
    (t.put names node).node? names = some node := by
  unfold node? at hfree ⊢
  split at hfree
  · exact absurd rfl hfree
  · next hhere =>
    rw [here_put, if_neg hhere, put, List.lookup_cons, beq_self_eq_true]

/-! ## Trees that differ in files only -/

/-- The trees `t` and `u` have the same directories, and at most the files at the `paths` of names
differ. -/
structure DiffersAt (paths : List (List String)) (t u : FileTree) : Prop where
  here : u.here = t.here
  elsewhere : ∀ names ∉ paths, u.node? names = t.node? names
  directories : ∀ names, u.node? names = some .directory ↔ t.node? names = some .directory

namespace DiffersAt

theorem refl (paths : List (List String)) (t : FileTree) : DiffersAt paths t t :=
  ⟨rfl, fun _ _ => rfl, fun _ => Iff.rfl⟩

theorem symm (h : DiffersAt paths t u) : DiffersAt paths u t where
  here := h.here.symm
  elsewhere names hnames := (h.elsewhere names hnames).symm
  directories names := (h.directories names).symm

theorem mono (h : DiffersAt paths t u) (hsub : paths ⊆ more) : DiffersAt more t u where
  here := h.here
  elsewhere names hnames := h.elsewhere names fun hmem => hnames (hsub hmem)
  directories := h.directories

theorem trans (hfirst : DiffersAt paths t u) (hrest : DiffersAt paths u v) :
    DiffersAt paths t v where
  here := hrest.here.trans hfirst.here
  elsewhere names hnames := (hrest.elsewhere names hnames).trans (hfirst.elsewhere names hnames)
  directories names := (hrest.directories names).trans (hfirst.directories names)

end DiffersAt

theorem differsAt_put (hfree : t.node? names ≠ some .directory) (content : Content) :
    DiffersAt [names] t (t.put names (.file content)) where
  here := rfl
  elsewhere other hother := node?_put_of_ne (fun h => hother (List.mem_singleton.mpr h)) t _
  directories other := by
    by_cases hsame : other = names
    · subst hsame
      have hfile := node?_put_self hfree (.file content)
      exact ⟨fun h => absurd (hfile.symm.trans h) (by simp), fun h => absurd h hfree⟩
    · rw [node?_put_of_ne hsame]

theorem differsAt_writeAt (t : FileTree) (names : List String) (offset : Nat) (s : String) :
    DiffersAt [names] t (t.writeAt names offset s) := by
  unfold writeAt
  split
  · next content hnode =>
    apply differsAt_put
    rw [hnode]
    simp
  · exact .refl _ t

/-! ## Where paths lead -/

/-- The place at the path of names `names`. -/
def placeAt (t : FileTree) (names : List String) : Place :=
  match t.node? names with
  | some .directory => .directory names
  | some (.file content) => .file names content
  | none => .free names

/-- The `path` leads to a file, or to a free place for one, at the path of names `names`. -/
structure LeadsTo (t : FileTree) (path : String) (names : List String) : Prop where
  free : t.node? names ≠ some .directory
  place : t.place path = .ok (t.placeAt names)

theorem placeAt_eq_file_iff :
    t.placeAt names = .file other content ↔
      names = other ∧ t.node? names = some (.file content) := by
  unfold placeAt
  split <;> simp_all

theorem placeAt_eq_free_iff :
    t.placeAt names = .free other ↔ names = other ∧ t.node? names = none := by
  unfold placeAt
  split <;> simp_all

theorem placeAt_ne_directory (hfree : t.node? names ≠ some .directory) :
    t.placeAt names ≠ .directory other := by
  unfold placeAt
  split <;> simp_all

/-- The last `name` of a path leads to where no directory stands. -/
theorem walk_last (hname : ¬ (name = "" ∨ name = ".")) (hup : name ≠ "..")
    (hlong : ¬ nameLimit < name.utf8ByteSize) (hfree : t.node? (here ++ [name]) ≠ some .directory) :
    t.walk here [name] = .ok (t.placeAt (here ++ [name])) := by
  rw [walk, if_neg hname, if_neg hup, if_neg hlong, placeAt]
  cases hnode : t.node? (here ++ [name]) with
  | none => rfl
  | some node =>
      cases node with
      | file content => rfl
      | directory => exact absurd hnode hfree

/-- In trees `t` and `u` that differ in files only, what is not a directory is met under the same
path. -/
theorem walk_eq_placeAt (h : DiffersAt paths t u) (hfree : t.node? names ≠ some .directory)
    (hwalk : t.walk here rest = .ok (t.placeAt names)) :
    u.walk here rest = .ok (u.placeAt names) := by
  induction rest generalizing here with
  | nil => exact absurd (Except.ok.inj hwalk).symm (placeAt_ne_directory hfree)
  | cons name rest ih =>
      -- Both walks stay together as long as they go through directories; a file or a free
      -- place ends them.
      have hend : ∀ place, t.placeAt names = place →
          (place = .free (here ++ [name]) ∨ ∃ content, place = .file (here ++ [name]) content) →
          names = here ++ [name] := by
        rintro place hplace (rfl | ⟨content, rfl⟩)
        · exact (placeAt_eq_free_iff.mp hplace).1
        · exact (placeAt_eq_file_iff.mp hplace).1
      have hstill := mt (h.directories names).mp hfree
      by_cases hname : name = "" ∨ name = "."
      · rw [walk, if_pos hname] at hwalk ⊢
        exact ih hwalk
      by_cases hup : name = ".."
      · rw [walk, if_neg hname, if_pos hup] at hwalk ⊢
        exact ih hwalk
      by_cases hlong : nameLimit < name.utf8ByteSize
      · rw [walk, if_neg hname, if_neg hup, if_pos hlong] at hwalk
        cases hwalk
      rw [walk, if_neg hname, if_neg hup, if_neg hlong] at hwalk
      split at hwalk
      · next hnode =>
        rw [walk, if_neg hname, if_neg hup, if_neg hlong, (h.directories _).mpr hnode]
        exact ih hwalk
      · next content hnode =>
        split at hwalk
        · next hrest =>
          subst hrest
          obtain rfl := hend _ (Except.ok.inj hwalk).symm (.inr ⟨content, rfl⟩)
          exact walk_last hname hup hlong hstill
        · cases hwalk
      · next hnode =>
        split at hwalk
        · next hrest =>
          subst hrest
          obtain rfl := hend _ (Except.ok.inj hwalk).symm (.inl rfl)
          exact walk_last hname hup hlong hstill
        · cases hwalk

theorem walk_cases (hwalk : t.walk here rest = .ok place) :
    (∃ names, place = .directory names) ∨
      ∃ names, t.node? names ≠ some .directory ∧ place = t.placeAt names := by
  induction rest generalizing here with
  | nil => exact .inl ⟨here, (Except.ok.inj hwalk).symm⟩
  | cons name rest ih =>
      unfold walk at hwalk
      split at hwalk
      · exact ih hwalk
      · split at hwalk
        · exact ih hwalk
        · split at hwalk
          · cases hwalk
          · split at hwalk
            · exact ih hwalk
            · next content hnode =>
              split at hwalk
              · obtain rfl := Except.ok.inj hwalk
                exact .inr ⟨_, by simp [hnode], (placeAt_eq_file_iff.mpr ⟨rfl, hnode⟩).symm⟩
              · cases hwalk
            · next hnode =>
              split at hwalk
              · obtain rfl := Except.ok.inj hwalk
                exact .inr ⟨_, by simp [hnode], (placeAt_eq_free_iff.mpr ⟨rfl, hnode⟩).symm⟩
              · cases hwalk

/-- A `path` leads to a directory, or to a path of names `names` without one. -/
theorem place_cases (hplace : t.place path = .ok place) :
    (∃ names, place = .directory names) ∨
      ∃ names, t.LeadsTo path names ∧ place = t.placeAt names := by
  have hwalk : ∃ here rest, t.walk here rest = .ok place := by
    unfold FileTree.place at hplace
    split at hplace
    · cases hplace
    · split at hplace
      · cases hplace
      · split at hplace
        · cases hplace
        · exact ⟨_, _, hplace⟩
        · exact ⟨_, _, hplace⟩
  obtain ⟨here, rest, hwalk⟩ := hwalk
  refine (walk_cases hwalk).imp_right ?_
  rintro ⟨names, hfree, rfl⟩
  exact ⟨names, ⟨hfree, hplace⟩, rfl⟩

theorem LeadsTo.of_differsAt (hleads : t.LeadsTo path names) (h : DiffersAt paths t u) :
    u.LeadsTo path names := by
  obtain ⟨hfree, hplace⟩ := hleads
  refine ⟨mt (h.directories names).mp hfree, ?_⟩
  unfold FileTree.place at hplace ⊢
  split at hplace
  · cases hplace
  · next hnul =>
    rw [if_neg hnul]
    split at hplace
    · cases hplace
    · next hlong =>
      rw [if_neg hlong]
      split at hplace
      · cases hplace
      · exact walk_eq_placeAt h hfree hplace
      · rw [h.here]
        exact walk_eq_placeAt h hfree hplace

theorem LeadsTo.unique (hleads : t.LeadsTo path names) (hother : t.LeadsTo path other) :
    names = other := by
  have hsame := Except.ok.inj (hleads.place.symm.trans hother.place)
  cases hnode : t.node? names with
  | none => exact (placeAt_eq_free_iff.mp (hsame ▸ placeAt_eq_free_iff.mpr ⟨rfl, hnode⟩)).1.symm
  | some node =>
      cases node with
      | file content =>
          exact (placeAt_eq_file_iff.mp (hsame ▸ placeAt_eq_file_iff.mpr ⟨rfl, hnode⟩)).1.symm
      | directory => exact absurd hnode hleads.free

/-! ## Reading and writing -/

theorem read_eq_ok_iff :
    t.read path = .ok content ↔
      ∃ names, t.LeadsTo path names ∧ t.node? names = some (.file content) := by
  constructor
  · intro hread
    unfold read at hread
    split at hread
    · next names found hplace =>
      obtain rfl := Except.ok.inj hread
      rcases place_cases hplace with ⟨_, hdirectory⟩ | ⟨other, hleads, hfile⟩
      · cases hdirectory
      · obtain ⟨rfl, hnode⟩ := placeAt_eq_file_iff.mp hfile.symm
        exact ⟨_, hleads, hnode⟩
    all_goals cases hread
  · rintro ⟨names, hleads, hnode⟩
    rw [read, hleads.place, placeAt_eq_file_iff.mpr ⟨rfl, hnode⟩]

theorem has_of_read (hread : t.read path = .ok content) : t.has path = true := by
  obtain ⟨names, hleads, hnode⟩ := read_eq_ok_iff.mp hread
  rw [has, hleads.place, placeAt_eq_file_iff.mpr ⟨rfl, hnode⟩]

theorem target_eq_ok_iff :
    t.target path = .ok names ↔ trimSlashes path = path ∧ t.LeadsTo path names := by
  constructor
  · intro htarget
    unfold target at htarget
    split at htarget
    · cases htarget
    · cases htarget
    · next found content hplace =>
      split at htarget
      · next htrim =>
        obtain rfl := Except.ok.inj htarget
        rw [htrim] at hplace
        rcases place_cases hplace with ⟨_, hdirectory⟩ | ⟨other, hleads, hfile⟩
        · cases hdirectory
        · obtain ⟨rfl, -⟩ := placeAt_eq_file_iff.mp hfile.symm
          exact ⟨htrim, hleads⟩
      · cases htarget
    · next found hplace =>
      split at htarget
      · next htrim =>
        obtain rfl := Except.ok.inj htarget
        rw [htrim] at hplace
        rcases place_cases hplace with ⟨_, hdirectory⟩ | ⟨other, hleads, hfree⟩
        · cases hdirectory
        · obtain ⟨rfl, -⟩ := placeAt_eq_free_iff.mp hfree.symm
          exact ⟨htrim, hleads⟩
      · cases htarget
  · rintro ⟨htrim, hleads⟩
    rw [target, htrim, hleads.place]
    cases hnode : t.node? names with
    | none =>
        rw [placeAt_eq_free_iff.mpr ⟨rfl, hnode⟩]
        exact if_pos rfl
    | some node =>
        cases node with
        | file content =>
            rw [placeAt_eq_file_iff.mpr ⟨rfl, hnode⟩]
            exact if_pos rfl
        | directory => exact absurd hnode hleads.free

theorem target_of_differsAt (htarget : t.target path = .ok names) (h : DiffersAt paths t u) :
    u.target path = .ok names := by
  obtain ⟨htrim, hleads⟩ := target_eq_ok_iff.mp htarget
  exact target_eq_ok_iff.mpr ⟨htrim, hleads.of_differsAt h⟩

theorem exists_problem_of_differsAt {problem : Problem} (htarget : t.target path = .error problem)
    (h : DiffersAt paths t u) : ∃ other, u.target path = .error other := by
  cases hafter : u.target path with
  | error other => exact ⟨other, rfl⟩
  | ok names =>
      rw [target_of_differsAt hafter h.symm] at htarget
      cases htarget

/-- The `content` that is read under a `path` that leads to none of the files that differ is the
same. -/
theorem read_of_differsAt (hread : t.read path = .ok content)
    (hapart : ∀ names ∈ paths, ¬ t.LeadsTo path names) (h : DiffersAt paths t u) :
    u.read path = .ok content := by
  obtain ⟨names, hleads, hnode⟩ := read_eq_ok_iff.mp hread
  refine read_eq_ok_iff.mpr ⟨names, hleads.of_differsAt h, ?_⟩
  rw [h.elsewhere names fun hmem => hapart names hmem hleads, hnode]

theorem write_eq_ok_iff :
    t.write path content = .ok u ↔
      ∃ names, t.target path = .ok names ∧ u = t.put names (.file content) := by
  rw [write, Except.map_eq_ok_iff]
  simp only [eq_comm]

theorem differsAt_write (htarget : t.target path = .ok names) (content : Content) :
    DiffersAt [names] t (t.put names (.file content)) :=
  differsAt_put (target_eq_ok_iff.mp htarget).2.free content

/-- A text `s` is read back under the `path` that it was written to. -/
theorem readText_of_write {s : String} (hwrite : t.write path (.text s) = .ok u) :
    u.readText path = .ok s := by
  obtain ⟨names, htarget, rfl⟩ := write_eq_ok_iff.mp hwrite
  obtain ⟨-, hleads⟩ := target_eq_ok_iff.mp htarget
  have hread := read_eq_ok_iff.mpr
    ⟨names, hleads.of_differsAt (differsAt_write htarget (.text s)),
      node?_put_self hleads.free _⟩
  rw [readText, hread]

end FileTree

end MediaManifest
