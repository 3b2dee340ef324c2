import MediaManifest.Proofs.Package.Filling
import MediaManifest.Proofs.Package.Reachable

/-!
# Refilling packages

Replacing the elements of a package empties it and adds the listed ones, up to
the first that is refused.  What was in the package before has a say in this
only through the generator: an element is refused if the identifier that it
brings, or is given, is already that of an element before it in the list
(`Repeats`).  The package then holds the elements before it.
-/

namespace MediaManifest

open Generator (next)

namespace Element

variable {γ : Type} [Generator γ] {g : γ} {e x : Element} {es front : List Element}
  {key : String}

theorem fillAll_append (g : γ) (xs ys : List Element) :
    fillAll g (xs ++ ys) =
      ((fillAll g xs).1 ++ (fillAll (fillAll g xs).2 ys).1, (fillAll (fillAll g xs).2 ys).2) := by
  induction xs generalizing g with
  | nil => rfl
  | cons e xs ih => rw [List.cons_append, fillAll, ih, fillAll, List.cons_append]

/-- Every filled element `x` is an element `e` of `es`, filled when those before it were. -/
theorem exists_cut_of_mem_fillAll (hx : x ∈ (fillAll g es).1) :
    ∃ front e back, es = front ++ e :: back ∧ x = (fill (fillAll g front).2 e).1 := by
  induction es generalizing g with
  | nil => exact absurd hx List.not_mem_nil
  | cons e es ih =>
      rw [fillAll] at hx
      rcases List.mem_cons.mp hx with rfl | hx
      · exact ⟨[], e, es, rfl, rfl⟩
      · obtain ⟨front, d, back, rfl, rfl⟩ := ih hx
        exact ⟨e :: front, d, back, rfl, rfl⟩

/-- The element `e` is the first of `es`, filled in order, that has the identifier of one before
it, namely `key`.  The elements `front` before it are filled under different identifiers. -/
structure Repeats (g : γ) (es front : List Element) (e : Element) (key : String) : Prop where
  order : ∃ back, es = front ++ e :: back
  distinct : (fillAll g front).1.Pairwise fun a b => a.id ≠ b.id
  id : (fill (fillAll g front).2 e).1.id = some key
  taken : ∃ x ∈ (fillAll g front).1, x.id = some key

/-- Filled elements with different identifiers stay so if some at the end are left out. -/
theorem pairwise_fillAll_prefix {back : List Element}
    (h : (fillAll g (front ++ back)).1.Pairwise fun a b => a.id ≠ b.id) :
    (fillAll g front).1.Pairwise fun a b => a.id ≠ b.id := by
  rw [fillAll_append] at h
  exact (List.pairwise_append.mp h).1

theorem Repeats.not_pairwise (h : Repeats g es front e key) :
    ¬ (fillAll g es).1.Pairwise fun a b => a.id ≠ b.id := by
  obtain ⟨back, rfl⟩ := h.order
  obtain ⟨x, hx, hid⟩ := h.taken
  rw [fillAll_append]
  intro hdistinct
  have hacross := (List.pairwise_append.mp hdistinct).2.2
  exact hacross x hx _ List.mem_cons_self (hid.trans h.id.symm)

end Element

namespace Package

open Element (Repeats fill fillAll)

variable {γ : Type} {p after : Package γ} {e : Element} {es : List Element} {error : Error}

/-- The package `after` is one of the elements `es`, under the names of `p`.  It finds each of
them, and nothing else. -/
structure Refilled (p after : Package γ) (es : List Element) : Prop where
  elements : after.elements = es
  distinct : es.Pairwise fun a b => a.id ≠ b.id
  size : after.size = es.length
  contains : ∀ key, after.contains key = true ↔ ∃ e ∈ es, e.id = some key
  get? : ∀ key, after.get? key = es.find? fun e => e.id == some key
  identifier : after.identifier = p.identifier
  title : after.title = p.title

theorem refilled_of_roster {g : γ}
    (hroster : after.roster = ⟨p.identifier, p.title, es, g⟩) (h : after.slots.Coherent) :
    Refilled p after es := by
  obtain rfl : after.elements = es := congrArg Roster.elements hroster
  exact ⟨rfl, h.pairwise_ne, size_eq h, fun _ => h.contains_iff, get?_eq h,
    congrArg Roster.identifier hroster, congrArg Roster.title hroster⟩

variable [Generator γ]

/-! ## Names of packages -/

/-- The package `p` under other names. -/
def named (p : Package γ) (identifier title : Option String) : Package γ :=
  { p with identifier := identifier, title := title }

section Names

variable (identifier title : Option String)

theorem insert_named (p : Package γ) (key : String) (e : Element) :
    (p.named identifier title).insert key e =
      (p.insert key e).map id (named · identifier title) := by
  rw [insert, insert, apply_ite (Prod.map _ _)]
  rfl

/-- What `p` is called has no influence on what is added to it. -/
theorem add_named (p : Package γ) (e : Element) :
    (p.named identifier title).add e = (p.add e).map id (named · identifier title) := by
  cases hid : e.id with
  | some key =>
      rw [add, add, hid]
      exact insert_named identifier title p key e
  | none =>
      rw [add, add, hid]
      exact insert_named identifier title p.draw.2 p.draw.1 _

theorem addAll_named (p : Package γ) (es : List Element) :
    (p.named identifier title).addAll es = (p.addAll es).map id (named · identifier title) := by
  induction es generalizing p with
  | nil => rfl
  | cons e es ih =>
      rw [addAll, addAll, add_named]
      rcases p.add e with ⟨_ | _, q⟩
      · rfl
      · exact ih q

end Names

/-- What is left of `p` and `q`, and what they answer, depends on their elements only through the
generator. -/
theorem replaceElements_of_generator {p q : Package γ} (hsame : q.generator = p.generator)
    (es : List Element) :
    q.replaceElements es =
      (p.replaceElements es).map id (named · q.identifier q.title) := by
  have hclear : q.clear.2 = p.clear.2.named q.identifier q.title := by
    rw [clear, clear, hsame]
    rfl
  rw [replaceElements, hclear]
  exact addAll_named _ _ p.clear.2 es

/-! ## Refusals -/

/-- The elements `es` are all added, or up to an element `e` that is refused. -/
theorem addAll_cases (p : Package γ) (es : List Element) :
    (∃ after, p.addAll es = (.ok (), after)) ∨
      ∃ front e back grown error after, es = front ++ e :: back ∧
        p.addAll front = (.ok (), grown) ∧ grown.add e = (.error error, after) ∧
        p.addAll es = (.error error, after) := by
  induction es generalizing p with
  | nil => exact .inl ⟨p, rfl⟩
  | cons e es ih =>
      rcases hstep : p.add e with ⟨error | key, q⟩
      · refine .inr ⟨[], e, es, p, error, q, rfl, rfl, hstep, ?_⟩
        rw [addAll, hstep]
      · have hcons (rest : List Element) : p.addAll (e :: rest) = q.addAll rest := by
          rw [addAll, hstep]
        rcases ih q with ⟨after, hall⟩ | hstops
        · exact .inl ⟨after, (hcons es).trans hall⟩
        · obtain ⟨front, x, back, grown, error, after, rfl, hfront, hx, hall⟩ := hstops
          exact .inr ⟨e :: front, x, back, grown, error, after, rfl,
            (hcons front).trans hfront, hx, (hcons _).trans hall⟩

theorem snd_insert_of_taken {key : String} (htaken : p.contains key = true) (e : Element) :
    (p.insert key e).2 = p := by
  rw [insert, if_pos htaken]

/-- A refused element `e` has an identifier that is taken, and nothing but a draw is left of the
attempt. -/
theorem eq_of_add_error (h : p.slots.Coherent) (hadd : p.add e = (.error error, after)) :
    ∃ key, (fill p.generator e).1.id = some key ∧ key ∈ p.ids ∧
      error = .duplicateElement key ∧
      after =
        { p with generator := if e.id = none then (next p.generator).2 else p.generator } := by
  obtain ⟨key, hkey⟩ := Element.exists_id_fill p.generator e
  have hmodel := refines_add h e
  rw [hadd] at hmodel
  have htaken : key ∈ p.ids := by
    by_contra hfree
    have hok := Roster.add_of_free (r := p.roster) hkey hfree
    exact nomatch (congrArg Prod.fst hok).symm.trans hmodel.answer.symm
  have herror := hmodel.answer.trans (Roster.fst_add_of_taken (r := p.roster) hkey htaken)
  have hcontains : p.contains key = true := (contains_iff h).mpr htaken
  refine ⟨key, hkey, htaken, Except.error.inj herror, ?_⟩
  have hafter : (p.add e).2 = after := congrArg Prod.snd hadd
  cases hid : e.id with
  | some own =>
      rw [Element.fill_of_some _ hid, hid] at hkey
      obtain rfl := Option.some.inj hkey
      rw [add, hid] at hafter
      rw [if_neg (Option.some_ne_none own), ← hafter]
      exact snd_insert_of_taken hcontains e
  | none =>
      rw [Element.fill_of_none _ hid] at hkey
      obtain rfl := Option.some.inj hkey
      rw [add, hid] at hafter
      rw [if_pos rfl, ← hafter]
      exact snd_insert_of_taken (p := p.draw.2) hcontains _

/-- A package whose elements could all be replaced by `es` holds these as they were filled. -/
theorem roster_of_replaceElements (hok : p.replaceElements es = (.ok (), after)) :
    after.roster =
        ⟨p.identifier, p.title, (fillAll p.generator es).1, (fillAll p.generator es).2⟩ ∧
      after.slots.Coherent := by
  have hmodel := refines_replaceElements p es
  rw [hok] at hmodel
  exact ⟨Roster.addAll_eq_of_ok hmodel.model_eq, hmodel.coherent⟩

theorem refilled_of_replaceElements (hok : p.replaceElements es = (.ok (), after)) :
    Refilled p after (fillAll p.generator es).1 := by
  obtain ⟨hroster, hcoherent⟩ := roster_of_replaceElements hok
  exact refilled_of_roster hroster hcoherent

/-- Replacing the elements by `es` fails at the first one whose identifier an earlier one has. -/
theorem exists_repeats_of_error (hfails : p.replaceElements es = (.error error, after)) :
    ∃ front e key grown, Repeats p.generator es front e key ∧
      p.replaceElements front = (.ok (), grown) ∧ error = .duplicateElement key ∧
      after = { grown with
        generator := if e.id = none then (next grown.generator).2 else grown.generator } := by
  rcases addAll_cases p.clear.2 es with
    ⟨done, hall⟩ | ⟨front, e, back, grown, last, stopped, rfl, hfront, hadd, hall⟩
  · exact nomatch (congrArg Prod.fst hfails).symm.trans (congrArg Prod.fst hall)
  · obtain ⟨hanswer, rfl⟩ := Prod.mk.inj (hfails.symm.trans hall)
    obtain rfl := Except.error.inj hanswer
    obtain ⟨hroster, hcoherent⟩ := roster_of_replaceElements hfront
    obtain ⟨key, hkey, htaken, herror, hafter⟩ := eq_of_add_error hcoherent hadd
    have hgrown := refilled_of_roster hroster hcoherent
    have hgenerator : grown.generator = (fillAll p.generator front).2 :=
      congrArg Roster.generator hroster
    rw [hgenerator] at hkey
    rw [mem_ids_iff, hgrown.elements] at htaken
    exact ⟨front, e, key, grown, ⟨⟨back, rfl⟩, hgrown.distinct, hkey, htaken⟩, hfront, herror,
      hafter⟩

omit [Generator γ] in
theorem Refilled.withGenerator {grown : Package γ} (h : Refilled p grown es) (g : γ) :
    Refilled p { grown with generator := g } es :=
  ⟨h.elements, h.distinct, h.size, h.contains, h.get?, h.identifier, h.title⟩

theorem exists_replaceElements_iff :
    (∃ after, p.replaceElements es = (.ok (), after)) ↔
      (fillAll p.generator es).1.Pairwise fun a b => a.id ≠ b.id := by
  constructor
  · rintro ⟨after, hok⟩
    exact (refilled_of_replaceElements hok).distinct
  · intro hdistinct
    rcases hanswer : p.replaceElements es with ⟨error | done, after⟩
    · obtain ⟨_, _, _, _, hrepeats, -⟩ := exists_repeats_of_error hanswer
      exact absurd hdistinct hrepeats.not_pairwise
    · exact ⟨after, rfl⟩

/-- Replacing the elements of `p` by `es` keeps exactly a `front` of `es` if it fails.  It fails
with the identifier `key` of the first element `e` that has the one of an element before it, its
own or a drawn one, and the package then holds the elements before `e` as they were filled, under
its old names, and finds them.  It fails only if two of the filled elements share an identifier.
Another package `q` with the same generator gives the same answer and is left the same but for its
names, whatever elements it had. -/
theorem replaceElements_keeps_front (p : Package γ) (es : List Element) :
    (∀ error after, p.replaceElements es = (.error error, after) →
      ∃ front e key, Repeats p.generator es front e key ∧ error = .duplicateElement key ∧
        Refilled p after (fillAll p.generator front).1) ∧
    ((∃ after, p.replaceElements es = (.ok (), after)) ↔
      (fillAll p.generator es).1.Pairwise fun a b => a.id ≠ b.id) ∧
    ∀ q : Package γ, q.generator = p.generator →
      q.replaceElements es = (p.replaceElements es).map id (named · q.identifier q.title) := by
  refine ⟨fun error after hfails => ?_, exists_replaceElements_iff, fun q hsame =>
    replaceElements_of_generator hsame es⟩
  obtain ⟨front, e, key, grown, hrepeats, hfront, herror, rfl⟩ := exists_repeats_of_error hfails
  exact ⟨front, e, key, hrepeats, herror, (refilled_of_replaceElements hfront).withGenerator _⟩

/-- The second identifier drawn is one that the list has brought before.  The list also brings
an identifier back that the package held. -/
theorem replaceElements_keeps_front_of_repeated_draw :
    let e := Element.ofBody .catalog
    let p := (⟨some "mp", some "t", .empty, ⟨["d", "c", "x"]⟩⟩ : Package Listed).run
      [.add (e.withId "a"), .add (e.withId "b")]
    let q : Package Listed := ⟨none, none, .empty, p.generator⟩
    let es := [e.withId "c", e, e.withId "b", e, e.withId "g"]
    Reachable p ∧ ∃ front x after,
      p.replaceElements es = (.error (.duplicateElement "c"), after) ∧
      Repeats p.generator es front x "c" ∧
      after.elements = (fillAll p.generator front).1 ∧
      after.elements = [e.withId "c", e.withId "d", e.withId "b"] ∧
      after.contains "b" = true ∧ after.contains "a" = false ∧ after.title = some "t" ∧
      q.replaceElements es = (.error (.duplicateElement "c"), after.named none none) := by
  intro e p q es
  have hp : p.roster =
      ⟨some "mp", some "t", [e.withId "a", e.withId "b"], ⟨["d", "c", "x"]⟩⟩ := by
    rw [roster_run Slots.coherent_empty]
    rfl
  have hmodel := refines_replaceElements p es
  rw [hp, show Roster.replaceElements _ es = (.error (.duplicateElement "c"),
    ⟨some "mp", some "t", [e.withId "c", e.withId "d", e.withId "b"], ⟨["x"]⟩⟩) from rfl] at hmodel
  obtain ⟨after, hfails, hroster, -⟩ := hmodel.exists_eq
  have helements : after.elements = [e.withId "c", e.withId "d", e.withId "b"] :=
    congrArg Roster.elements hroster
  obtain ⟨hstops, -, hothers⟩ := replaceElements_keeps_front p es
  obtain ⟨front, x, key, hrepeats, herror, hrefilled⟩ := hstops _ after hfails
  obtain rfl := Error.duplicateElement.inj herror
  have htitle : p.title = some "t" := congrArg Roster.title hp
  refine ⟨(Reachable.new _ _ _).run _, front, x, after, hfails, hrepeats, hrefilled.elements,
    helements, ?_, ?_, hrefilled.title.trans htitle, ?_⟩
  · rw [hrefilled.contains, ← hrefilled.elements, helements]
    decide
  · rw [← Bool.not_eq_true, hrefilled.contains, ← hrefilled.elements, helements]
    decide
  · rw [hothers q rfl, hfails]
    rfl

end Package

end MediaManifest
