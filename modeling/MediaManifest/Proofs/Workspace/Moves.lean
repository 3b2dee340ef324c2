import MediaManifest.Workspace
import MediaManifest.Proofs.Package.Lineage
import MediaManifest.Proofs.Package.Memory

/-!
# Moves in a workspace

Packages of a workspace are founded, decoded, copied, given other sources,
changed and merged, one move after the other.  Copies share their source of
identifiers, and so do packages that are given the same one.

A workspace is `Sound` if every package in it finds its elements and every
source covers the identifiers of all packages that draw from it.  Every move
keeps this, and no source ever forgets what it covered.
-/

namespace MediaManifest

open Generator (Leads)

namespace Workspace

/-- A move in a workspace.  Packages are given by their names and sources by their numbers; a
source that comes into use later stands in the table from the beginning. -/
inductive Move where
  | found (name : String) (identifier title : Option String) (n : Nat)
  | decode (name : String) (n : Nat) (content : Text.Content)
  | copy (name other : String)
  | share (name : String) (n : Nat)
  | perform (name : String) (op : Operation)
  | merge (dest src : String) (mode : Mode)

/-- Puts the source `s` in the place of the one with the number `n`. -/
def renew (w : Workspace) (n : Nat) (s : Source) : Workspace :=
  { w with sources := w.sources.setIfInBounds n s }

/-- Lets an `operation` work on the package called `name`, if there is one. -/
def alter {α : Type} (w : Workspace) (name : String)
    (operation : Package Source → α × Package Source) : Workspace :=
  match w.package? name with
  | none => w
  | some p => (w.act p operation).2.2.store name (w.act p operation).2.1

/-- The workspace `w` after a move.  A move that names no package, or whose operation fails, is a
move as well. -/
def play (w : Workspace) : Move → Workspace
  | .found name identifier title n => w.store name ⟨identifier, title, .empty, n⟩
  | .decode name n content =>
    match Codec.decode (w.source n) content with
    | (.error _, s) => w.renew n s
    | (.ok p, s) => (w.renew n s).store name { p with generator := n }
  | .copy name other =>
    match w.package? name with
    | none => w
    | some p => w.store other p
  | .share name n =>
    match w.package? name with
    | none => w
    | some p => (w.share p n).2.store name (w.share p n).1
  | .perform name op => w.alter name fun p => p.perform op
  | .merge dest src mode =>
    match w.package? src with
    | none => w
    | some q => w.alter dest fun p => p.merge mode q

/-- The workspace `w` after the `moves` one after the other. -/
def run (w : Workspace) (moves : List Move) : Workspace :=
  moves.foldl play w

variable {w : Workspace} {name key : String} {p q : Package Nat} {n m : Nat} {s : Source}

theorem run_append (w : Workspace) (moves more : List Move) :
    w.run (moves ++ more) = (w.run moves).run more :=
  List.foldl_append

/-! ## Packages and sources -/

theorem mem_store_iff {entry : String × Package Nat} :
    entry ∈ (w.store name p).packages ↔
      (entry ∈ w.packages ∧ entry.1 ≠ name) ∨ entry = (name, p) := by
  simp [store]

theorem mem_of_package? (h : w.package? name = some p) : (name, p) ∈ w.packages := by
  obtain ⟨front, back, hsplit, -⟩ := List.lookup_eq_some_iff.mp h
  rw [hsplit]
  exact List.mem_append_right front List.mem_cons_self

theorem source_renew (w : Workspace) (n m : Nat) (s : Source) :
    (w.renew n s).source m = if n = m ∧ n < w.sources.size then s else w.source m := by
  simp only [renew, source, Array.getD_eq_getD_getElem?, Array.getElem?_setIfInBounds]
  by_cases hsame : n = m
  · subst hsame
    by_cases hbound : n < w.sources.size
    · simp [hbound]
    · simp [hbound]
  · simp [hsame]

/-! ## What sources go through -/

theorem leads_renew (hleads : Leads (w.source n) s) (m : Nat) :
    Leads (w.source m) ((w.renew n s).source m) := by
  rw [source_renew]
  split
  · next hsame => exact hsame.1 ▸ hleads
  · exact .refl _

theorem leads_alter {α : Type} {operation : Package Source → α × Package Source}
    (hrun : ∀ p, ∃ ops, (operation p).2 = p.run ops) (w : Workspace) (name : String) (m : Nat) :
    Leads (w.source m) ((w.alter name operation).source m) := by
  unfold alter
  split
  · exact .refl _
  · next p _ =>
    obtain ⟨ops, hops⟩ := hrun (w.equip p)
    have hleads : Leads (w.source p.generator) (operation (w.equip p)).2.generator := by
      rw [hops]
      exact Package.leads_run (w.equip p) ops
    exact leads_renew hleads m

/-- Every source `m` is led to what it is after a `move`. -/
theorem leads_play (w : Workspace) (move : Move) (m : Nat) :
    Leads (w.source m) ((w.play move).source m) := by
  cases move with
  | found name identifier title n => exact .refl _
  | decode name n content =>
      have hdecode := Codec.leads_decode (w.source n) content
      rw [play]
      split
      · next hstep =>
        rw [hstep] at hdecode
        exact leads_renew hdecode m
      · next hstep =>
        rw [hstep] at hdecode
        exact leads_renew hdecode m
  | copy name other =>
      rw [play]
      split <;> exact .refl _
  | share name n =>
      rw [play]
      split
      · exact .refl _
      · exact leads_renew (Generator.leads_reserveAll _ _) m
  | perform name op => exact leads_alter (fun p => ⟨[op], rfl⟩) w name m
  | merge dest src mode =>
      rw [play]
      split
      · exact .refl _
      · next q _ =>
        exact leads_alter (fun p => Package.exists_run_merge mode p q) w dest m

theorem leads_run (w : Workspace) (moves : List Move) (m : Nat) :
    Leads (w.source m) ((w.run moves).source m) := by
  induction moves generalizing w with
  | nil => exact .refl _
  | cons move moves ih => exact (leads_play w move m).trans (ih _)

/-! ## Soundness -/

/-- A package that draws from the source `n` holds the identifier `key`. -/
def Holds (w : Workspace) (n : Nat) (key : String) : Prop :=
  ∃ entry ∈ w.packages, entry.2.generator = n ∧ key ∈ entry.2.ids

/-- The packages find their elements, and the sources cover what is held by the packages
that draw from them. -/
structure Sound (w : Workspace) : Prop where
  coherent : ∀ entry ∈ w.packages, entry.2.slots.Coherent
  covers : ∀ n key, w.Holds n key → (w.source n).Covers key

theorem sound_of_no_packages (sources : Array Source) : Sound ⟨sources, []⟩ where
  coherent _ hentry := absurd hentry List.not_mem_nil
  covers := by
    rintro n key ⟨entry, hentry, -⟩
    exact absurd hentry List.not_mem_nil

theorem Sound.renew (h : w.Sound) (hleads : Leads (w.source n) s) : (w.renew n s).Sound where
  coherent := h.coherent
  covers m key hholds :=
    Source.settles_covers.toRemembers.leads (leads_renew hleads m) (h.covers m key hholds)

theorem Sound.store (h : w.Sound) (name : String) (hcoherent : p.slots.Coherent)
    (hcovers : ∀ key ∈ p.ids, (w.source p.generator).Covers key) :
    (w.store name p).Sound where
  coherent := by
    intro entry hentry
    rcases mem_store_iff.mp hentry with ⟨hold, -⟩ | rfl
    · exact h.coherent entry hold
    · exact hcoherent
  covers := by
    rintro n key ⟨entry, hentry, rfl, hkey⟩
    rcases mem_store_iff.mp hentry with ⟨hold, -⟩ | rfl
    · exact h.covers _ key ⟨entry, hold, rfl, hkey⟩
    · exact hcovers key hkey

theorem covers_source_renew (hcovers : s.Covers key) : ((w.renew n s).source n).Covers key := by
  rw [source_renew]
  split
  · exact hcovers
  · next hbound =>
    -- A number outside the table stands for a source that numbers nothing.
    have hout : w.source n = .listed ⟨[]⟩ := by
      rw [source, Array.getD_eq_getD_getElem?, Array.getElem?_eq_none (by simpa using hbound)]
      rfl
    rw [hout]
    trivial

/-- A package `p` that comes with a further state `s` of its source leaves the workspace sound. -/
theorem Sound.renew_store (h : w.Sound) (name : String) (hleads : Leads (w.source n) s)
    (hcoherent : p.slots.Coherent) (hcovers : ∀ key ∈ p.ids, s.Covers key)
    (hn : p.generator = n) : ((w.renew n s).store name p).Sound := by
  refine (h.renew hleads).store name hcoherent ?_
  intro key hkey
  rw [hn]
  exact covers_source_renew (hcovers key hkey)

theorem Sound.known_equip (h : w.Sound) (hp : (name, p) ∈ w.packages) :
    (w.equip p).roster.Known Source.Covers := by
  intro e he key hid
  exact h.covers _ key ⟨_, hp, rfl, Package.mem_ids_iff.mpr ⟨e, he, hid⟩⟩

theorem Sound.alter {α : Type} (h : w.Sound) (name : String)
    {operation : Package Source → α × Package Source}
    (hrun : ∀ p, ∃ ops, (operation p).2 = p.run ops) : (w.alter name operation).Sound := by
  unfold Workspace.alter
  split
  · exact h
  · next p hp =>
    have hmem := mem_of_package? hp
    have hcoherent := h.coherent _ hmem
    obtain ⟨ops, hops⟩ := hrun (w.equip p)
    have hknown := Package.known_run (p := w.equip p) hcoherent (h.known_equip hmem)
      Source.settles_covers.toRemembers ops
    have hafter := Package.coherent_run (p := w.equip p) hcoherent ops
    have hleads := Package.leads_run (w.equip p) ops
    rw [← hops] at hknown hafter hleads
    exact h.renew_store name hleads hafter (fun key hkey => hknown.of_mem_ids hkey) rfl

/-- Every `move` keeps a workspace sound. -/
theorem Sound.play (h : w.Sound) (move : Move) : (w.play move).Sound := by
  cases move with
  | found name identifier title n =>
      exact h.store name Slots.coherent_empty fun key hkey => absurd hkey List.not_mem_nil
  | decode name n content =>
      have hleads := Codec.leads_decode (w.source n) content
      rw [Workspace.play]
      split
      · next hstep =>
        rw [hstep] at hleads
        exact h.renew hleads
      · next p s hstep =>
        rw [hstep] at hleads
        have hreachable := Package.Reachable.decode (congrArg Prod.fst hstep)
        have hknown := hreachable.known Source.settles_covers.toRemembers
        refine h.renew_store name hleads hreachable.coherent ?_ rfl
        intro key hkey
        have hs := Codec.snd_decode_of_ok hstep
        rw [hs]
        exact hknown.of_mem_ids hkey
  | copy name other =>
      rw [Workspace.play]
      split
      · exact h
      · next p hp =>
        have hmem := mem_of_package? hp
        exact h.store other (h.coherent _ hmem) fun key hkey =>
          h.covers _ key ⟨_, hmem, rfl, hkey⟩
  | share name n =>
      rw [Workspace.play]
      split
      · exact h
      · next p hp =>
        refine h.renew_store name (Generator.leads_reserveAll p.ids (w.source n))
          (h.coherent _ (mem_of_package? hp)) ?_ rfl
        intro key hkey
        exact Source.settles_covers.toRemembers.reservedAll hkey
  | perform name op => exact h.alter name fun p => ⟨[op], rfl⟩
  | merge dest src mode =>
      rw [Workspace.play]
      split
      · exact h
      · next q _ => exact h.alter dest fun p => Package.exists_run_merge mode p q

theorem Sound.run (h : w.Sound) (moves : List Move) : (w.run moves).Sound := by
  induction moves generalizing w with
  | nil => exact h
  | cons move moves ih => exact ih (h.play move)

end Workspace

end MediaManifest
