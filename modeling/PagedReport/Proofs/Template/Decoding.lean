import Mathlib.Data.List.Forall2
import PagedReport.Proofs.Template.Schema
import PagedReport.Proofs.Text.Trimming

/-!
# Decoding along the schema

Two elements with one outline are decoded alike, at whatever places they stand and whatever has been
said before.  They are decoded without an error just when all values in them can be read, and an
error is that of a value that cannot.
-/

namespace PagedReport

namespace Template

/-! ## Values -/

/-- A value in a template: what it should be, the attribute or element that has it, its text and the
place of the element. -/
structure Slot where
  kind : Kind
  name : String
  raw : String
  place : Position

namespace Slot

def Reads (s : Slot) : Prop := s.kind.Reads s.raw

/-- An error of a value: it cannot be read, and the error names it and shows its text. -/
structure Blames (s : Slot) (x : ValueError) : Prop where
  unread : ¬ s.Reads
  name : x.name = s.name
  place : x.place = s.place
  value : trimmed x.value = trimmed s.raw

end Slot

/-- The values of an element itself. -/
def Site.values (site : Site) (e : Xml.Element) : List Slot :=
  (site.attributes.map fun (name, kind) ↦ ⟨kind, name, string e name, e.place⟩) ++
    (site.content?.map fun kind ↦ ⟨kind, e.name, e.chardata, e.place⟩).toList

/-- The values of an element and of all that is read inside it. -/
def slots (site : Site) (e : Xml.Element) : List Slot :=
  site.values e ++ e.elements.flatMap fun c ↦
    match _h : site.child? c.name with
    | some s => slots s c
    | none => []
termination_by site.depth
decreasing_by exact Site.depth_child _h

/-- The values of the child elements that are read. -/
def partSlots (ps : List (Site × Xml.Element)) : List Slot := ps.flatMap fun p ↦ slots p.1 p.2

theorem slots_eq (site : Site) (e : Xml.Element) :
    slots site e = site.values e ++ partSlots (site.parts e) := by
  have hparts : ∀ cs : List Xml.Element, (cs.flatMap fun c ↦
      match _h : site.child? c.name with
      | some s => slots s c
      | none => []) = partSlots (cs.filterMap fun c ↦ (site.child? c.name).map (·, c)) := by
    intro cs
    induction cs with
    | nil => rfl
    | cons c cs ih =>
        rw [List.flatMap_cons, ih]
        split
        · next s hs => simp [partSlots, hs]
        · next hnone => simp [hnone]
  rw [slots, hparts, Site.parts]

theorem slots_leaf {site : Site} (hsite : site.children = []) (e : Xml.Element) :
    slots site e = site.values e := by
  have hparts : site.parts e = [] := by
    rw [Site.parts, List.filterMap_eq_nil_iff]
    intro c _
    rw [Site.child?, hsite]
    rfl
  rw [slots_eq, hparts]
  exact List.append_nil _

/-! ## Rules -/

/-- A rule accepts what is blank or a value of a kind. -/
def Kind.Decides {α : Type} (k : Kind) (rule : ValueRule α) : Prop :=
  ∀ raw, (∃ a, rule raw = .ok a) ↔ k.Reads raw

theorem Kind.decides_orBlank {α : Type} {k : Kind} {blank : α}
    {rule : List Char → Except ValueFault α}
    (h : ∀ text, (∃ a, rule text = .ok a) ↔ k.Allows text) :
    k.Decides (ValueRule.orBlank blank rule) := by
  intro raw
  unfold ValueRule.orBlank Kind.Reads
  dsimp only
  split
  · next hblank => exact iff_of_true ⟨blank, rfl⟩ (.inl (List.isEmpty_iff.mp hblank))
  · next htext =>
      rw [h, or_iff_right]
      simpa using htext

theorem number_decides : Kind.number.Decides ValueRule.number := by
  refine Kind.decides_orBlank fun text ↦ ?_
  cases h : readDouble text <;> simp [Kind.Allows, h]

theorem optionalNumber_decides : Kind.number.Decides ValueRule.optionalNumber := by
  refine Kind.decides_orBlank fun text ↦ ?_
  cases h : readDouble text <;> simp [Kind.Allows, h]

theorem integer_decides : Kind.integer.Decides ValueRule.integer := by
  refine Kind.decides_orBlank fun text ↦ ?_
  cases h : readInt64 text <;> simp [Kind.Allows, h]

theorem boolean_decides : Kind.boolean.Decides ValueRule.boolean := by
  refine Kind.decides_orBlank fun text ↦ ?_
  have hnames : Kind.boolean.Allows text ↔ String.ofList text ∈ ValueRule.trueNames ∨
      String.ofList text ∈ ValueRule.falseNames := List.mem_append (s := ValueRule.trueNames)
  rw [hnames]
  by_cases htrue : String.ofList text ∈ ValueRule.trueNames
  · simp [htrue]
  · by_cases hfalse : String.ofList text ∈ ValueRule.falseNames <;> simp [htrue, hfalse]

theorem align_decides : Kind.align.Decides ValueRule.align := by
  refine Kind.decides_orBlank fun text ↦ ?_
  have hname : (Align.ofName? (String.ofList text)).isSome ↔ Kind.align.Allows text := by
    unfold Align.ofName? Kind.Allows
    split <;> simp_all [Kind.alignNames]
  rw [← hname]
  cases h : Align.ofName? (String.ofList text) <;> simp

theorem setting_decides {α : Type} {k : Kind} {ofName : String → Except UnknownName α}
    (h : ∀ text, (∃ a, ofName (String.ofList text) = .ok a) ↔ k.Allows text) :
    k.Decides (ValueRule.setting ofName) := by
  refine Kind.decides_orBlank fun text ↦ ?_
  rw [← h]
  cases ofName (String.ofList text) <;> simp

theorem orientation_decides : Kind.orientation.Decides (.setting Orientation.ofName) := by
  refine setting_decides fun text ↦ ?_
  unfold Orientation.ofName Kind.Allows
  dsimp only
  split
  · next hportrait => simp_all
  · split <;> simp_all

theorem unit_decides : Kind.unit.Decides (.setting LengthUnit.ofName) := by
  refine setting_decides fun text ↦ ?_
  unfold LengthUnit.ofName Kind.Allows
  split <;> simp_all [Kind.unitNames]

theorem format_decides : Kind.format.Decides (.setting PageFormat.ofName) := by
  refine setting_decides fun text ↦ ?_
  unfold PageFormat.ofName Kind.Allows
  split <;> simp_all [Kind.formatNames]

/-! ## Two runs of a decoder -/

/-- Errors with one text, wherever they are. -/
def ValueError.Same (x y : ValueError) : Prop :=
  x.name = y.name ∧ x.value = y.value ∧ x.fault = y.fault

/-- Two results are one value when all of some values can be read, or one error of a value that
cannot. -/
inductive Agree {α : Type} (ss : List Slot) : Except ValueError α → Except ValueError α → Prop
  | ok (a : α) : (∀ s ∈ ss, s.Reads) → Agree ss (.ok a) (.ok a)
  | error {x y : ValueError} {s : Slot} : x.Same y → s ∈ ss → s.Blames x →
      Agree ss (.error x) (.error y)

namespace Agree

variable {α : Type} {ss ts : List Slot} {r r' : Except ValueError α}

theorem congr (h : Agree ss r r') (hmem : ∀ s, s ∈ ss ↔ s ∈ ts) : Agree ts r r' := by
  cases h with
  | ok a hss => exact .ok a fun s hs ↦ hss s ((hmem s).mpr hs)
  | error hsame hs hblames => exact .error hsame ((hmem _).mp hs) hblames

/-- Values that can be read may be added. -/
theorem after (h : Agree ts r r') (hss : ∀ s ∈ ss, s.Reads) : Agree (ss ++ ts) r r' := by
  cases h with
  | ok a hts => exact .ok a fun s hs ↦ (List.mem_append.mp hs).elim (hss s) (hts s)
  | error hsame hs hblames => exact .error hsame (List.mem_append_right ss hs) hblames

theorem decided (h : Agree ss r r) :
    ((∃ a, r = .ok a) ↔ ∀ s ∈ ss, s.Reads) ∧ ∀ x, r = .error x → ∃ s ∈ ss, s.Blames x := by
  cases h with
  | ok a hreads =>
      refine ⟨⟨fun _ ↦ hreads, fun _ ↦ ⟨a, rfl⟩⟩, fun x hx ↦ ?_⟩
      cases hx
  | error _ hs hblames =>
      constructor
      · constructor
        · rintro ⟨a, ha⟩
          cases ha
        · intro hreads
          exact (hblames.unread (hreads _ hs)).elim
      · intro x hx
        cases hx
        exact ⟨_, hs, hblames⟩

end Agree

/-- What a decoder gives when nothing has been said. -/
def result {α : Type} (d : Decoder α) : Except ValueError α := (d.run []).1

/-- Two decoders read the same values to the same end, whatever has been said before. -/
def Decode {α : Type} (ss : List Slot) (d d' : Decoder α) : Prop :=
  ∀ ws ws', Agree ss (d.run ws).1 (d'.run ws').1

theorem run_bind {α β : Type} (d : Decoder α) (f : α → Decoder β) (ws : List Warning) :
    (d >>= f).run ws = match d.run ws with
      | (.ok a, more) => (f a).run more
      | (.error x, more) => (.error x, more) := by
  change (match d.run ws with
    | (r, more) => ExceptT.bindCont f r more) = _
  rcases d.run ws with ⟨a | a, more⟩ <;> rfl

theorem string_congr {e e' : Xml.Element} (hattr : e'.attributes = e.attributes) :
    string e' = string e := by
  funext name
  rw [string, string, Xml.Element.attribute?, Xml.Element.attribute?, hattr]

namespace Decode

variable {α β : Type} {ss ts : List Slot} {d d' : Decoder α}

theorem pure (a : α) : Decode [] (Pure.pure a : Decoder α) (Pure.pure a) :=
  fun _ _ ↦ .ok a (List.forall_mem_nil _)

theorem say (w w' : Warning) : Decode [] (say w) (Template.say w') :=
  fun _ _ ↦ .ok () (List.forall_mem_nil _)

theorem congr (h : Decode ss d d') (hmem : ∀ s, s ∈ ss ↔ s ∈ ts) : Decode ts d d' :=
  fun ws ws' ↦ (h ws ws').congr hmem

theorem bind (h : Decode ss d d') {f f' : α → Decoder β} (hf : ∀ a, Decode ts (f a) (f' a)) :
    Decode (ss ++ ts) (d >>= f) (d' >>= f') := by
  intro ws ws'
  have hd := h ws ws'
  rw [run_bind, run_bind]
  rcases hrun : d.run ws with ⟨r, more⟩
  rcases hrun' : d'.run ws' with ⟨r', more'⟩
  rw [hrun, hrun'] at hd
  -- Both runs go on with one value or stop with one error, but with warnings of their own.
  cases hd with
  | ok a hss => exact (hf a more more').after hss
  | error hsame hs hblames => exact .error hsame (List.mem_append_left ts hs) hblames

theorem returns (h : Decode ss d d') (g : α → β) :
    Decode ss (d >>= fun a ↦ Pure.pure (g a)) (d' >>= fun a ↦ Pure.pure (g a)) :=
  List.append_nil ss ▸ h.bind fun a ↦ .pure (g a)

theorem map (h : Decode ss d d') (g : α → β) : Decode ss (g <$> d) (g <$> d') := by
  rw [map_eq_pure_bind, map_eq_pure_bind]
  exact h.returns g

theorem ofPure {a a' : α} (h : Decode ss (Pure.pure a) (Pure.pure a')) (g : α → β) :
    Decode ss (Pure.pure (g a)) (Pure.pure (g a')) := by
  rw [← map_pure, ← map_pure]
  exact h.map g

/-! ### Values -/

theorem decode {k : Kind} {rule : ValueRule α} (hrule : k.Decides rule) {e e' : Xml.Element}
    {name shown raw : String} (hshown : k.Reads shown ↔ k.Reads raw)
    (htrimmed : trimmed shown = trimmed raw) :
    Decode [⟨k, name, raw, e.place⟩] (decode rule e name shown) (decode rule e' name shown) := by
  intro ws ws'
  unfold Template.decode
  cases hraw : rule shown with
  | ok a =>
      refine .ok a fun s hs ↦ ?_
      obtain rfl := List.mem_singleton.mp hs
      exact hshown.mp ((hrule shown).mp ⟨a, hraw⟩)
  | error fault =>
      have hunread : ¬ k.Reads raw := by
        intro hreads
        obtain ⟨a, ha⟩ := (hrule shown).mpr (hshown.mpr hreads)
        rw [hraw] at ha
        cases ha
      exact .error ⟨rfl, rfl, rfl⟩ (List.mem_singleton_self _) ⟨hunread, rfl, rfl, htrimmed⟩

theorem value {k : Kind} {rule : ValueRule α} (hrule : k.Decides rule) {e e' : Xml.Element}
    (hattr : e'.attributes = e.attributes) (name : String) :
    Decode [⟨k, name, string e name, e.place⟩] (value rule e name) (value rule e' name) := by
  rw [Template.value, Template.value, string_congr hattr]
  exact decode hrule Iff.rfl rfl

theorem setting {k : Kind} {ofName : String → Except UnknownName α}
    (hrule : k.Decides (.setting ofName)) {e e' : Xml.Element}
    (hattr : e'.attributes = e.attributes) (name : String) :
    Decode [⟨k, name, string e name, e.place⟩] (setting ofName e name)
      (setting ofName e' name) := by
  have htrimmed (raw : String) : trimBoth (trimmed raw).toList = trimBoth raw.toList := by
    rw [trimmed, String.toList_ofList, trimBoth_trimBoth]
  rw [Template.setting, Template.setting, string_congr hattr]
  refine decode hrule ?_ (congrArg String.ofList (htrimmed _))
  rw [Kind.Reads, Kind.Reads, htrimmed]

theorem content {k : Kind} {rule : ValueRule α} (hrule : k.Decides rule) {e e' : Xml.Element}
    (hname : e'.name = e.name) (htext : e'.chardata = e.chardata) :
    Decode [⟨k, e.name, e.chardata, e.place⟩] (content rule e) (content rule e') := by
  rw [Template.content, Template.content, hname, htext]
  exact decode hrule Iff.rfl rfl

end Decode

/-! ## Children -/

/-- Child elements that are read alike. -/
structure PartsAlike (site : Site) (p p' : Site × Xml.Element) : Prop where
  child : site.child? p.2.name = some p.1
  name : p'.2.name = p.2.name
  outline : outline p.1 p.2 = outline p.1 p'.2

/-- What elements with one outline have in common. -/
structure Alike (site : Site) (e e' : Xml.Element) : Prop where
  name : e'.name = e.name
  attributes : e'.attributes = e.attributes
  text : e'.chardata = e.chardata
  parts : List.Forall₂ (PartsAlike site) (site.parts e) (site.parts e')

theorem alike_of_outline {site : Site} {e e' : Xml.Element}
    (h : outline site e = outline site e') : Alike site e e' := by
  have hhead {s s' : Site} {c c' : Xml.Element} (hc : outline s c = outline s' c') :
      s = s' ∧ c'.name = c.name := by
    rw [outline_eq, outline_eq] at hc
    obtain ⟨hsite, hname, -⟩ := Outline.mk.inj hc
    exact ⟨hsite, hname.symm⟩
  rw [outline_eq, outline_eq] at h
  obtain ⟨-, hname, hattr, htext, hparts⟩ := Outline.mk.inj h
  refine ⟨hname.symm, hattr.symm, htext.symm, ?_⟩
  rw [← List.forall₂_eq_eq_eq, List.forall₂_map_left_iff, List.forall₂_map_right_iff] at hparts
  refine ((List.forall₂_and_left _ _).mpr ⟨fun p hp ↦ (Site.mem_parts hp).2, hparts⟩).imp ?_
  rintro p p' ⟨hchild, hp⟩
  obtain ⟨hsite, hname⟩ := hhead hp
  exact ⟨hchild, hname, hsite ▸ hp⟩

/-- Elements at a site are read by their outlines alone. -/
def Decodes {α : Type} (site : Site) (f : Xml.Element → Decoder α) : Prop :=
  ∀ ⦃e e' : Xml.Element⦄, outline site e = outline site e' → Decode (slots site e) (f e) (f e')

/-- A step for the child elements that are read, and nothing for others. -/
structure Steps {α : Type} (site : Site) (step : α → Xml.Element → Decoder α) : Prop where
  known : ∀ {tag s}, (tag, s) ∈ site.children → ∀ a {c c' : Xml.Element}, c.name = tag →
    c'.name = tag → outline s c = outline s c' → Decode (slots s c) (step a c) (step a c')
  unknown : ∀ a {c : Xml.Element}, site.child? c.name = none → step a c = pure a

namespace Steps

variable {α : Type} {site : Site} {step : α → Xml.Element → Decoder α}

theorem foldlM_eq (hstep : Steps site step) (e : Xml.Element) (a : α) :
    e.elements.foldlM step a = (site.parts e).foldlM (fun a p ↦ step a p.2) a := by
  rw [Site.parts]
  induction e.elements generalizing a with
  | nil => rfl
  | cons c cs ih =>
      cases hc : site.child? c.name with
      | none =>
          rw [List.foldlM_cons, hstep.unknown a hc, pure_bind, ih]
          simp [hc]
      | some s => simp [hc, ih]

theorem foldlM (hstep : Steps site step) {e e' : Xml.Element} (h : Alike site e e') (a : α) :
    Decode (partSlots (site.parts e)) (e.elements.foldlM step a) (e'.elements.foldlM step a) := by
  -- The elements differ in what is passed over, so the folds are compared on the parts.
  rw [hstep.foldlM_eq, hstep.foldlM_eq]
  have hparts := h.parts
  generalize site.parts e = ps, site.parts e' = ps' at hparts
  induction hparts generalizing a with
  | nil => exact .pure a
  | @cons p p' ps ps' hp _ ih =>
      rw [List.foldlM_cons, List.foldlM_cons]
      exact (hstep.known (Site.mem_children hp.child) a rfl hp.name hp.outline).bind ih

end Steps

/-- Elements with tags that are read, and no others. -/
structure Knows {α : Type} (site : Site) (known? : Xml.Element → Option (Decoder α)) : Prop where
  known : ∀ {tag s}, (tag, s) ∈ site.children → ∀ {c c' : Xml.Element}, c.name = tag →
    c'.name = tag → outline s c = outline s c' →
      ∃ d d', known? c = some d ∧ known? c' = some d' ∧ Decode (slots s c) d d'
  unknown : ∀ {c : Xml.Element}, site.child? c.name = none → known? c = none

namespace Knows

variable {α : Type} {site : Site} {known? : Xml.Element → Option (Decoder α)}

theorem filterMap_eq (hknown : Knows site known?) (e : Xml.Element) :
    e.elements.filterMap known? = (site.parts e).filterMap fun p ↦ known? p.2 := by
  rw [Site.parts, List.filterMap_filterMap]
  refine List.filterMap_congr fun c _ ↦ ?_
  cases hc : site.child? c.name with
  | none => exact hknown.unknown hc
  | some s => rfl

theorem elements (hknown : Knows site known?) {e e' : Xml.Element} (h : Alike site e e') :
    Decode (partSlots (site.parts e)) (elements known? e) (elements known? e') := by
  rw [Template.elements, Template.elements, hknown.filterMap_eq, hknown.filterMap_eq]
  have hparts := h.parts
  generalize site.parts e = ps, site.parts e' = ps' at hparts
  induction hparts with
  | nil => exact .pure []
  | @cons p p' ps ps' hp _ ih =>
      obtain ⟨d, d', hd, hd', hdecode⟩ :=
        hknown.known (Site.mem_children hp.child) rfl hp.name hp.outline
      simp only [List.filterMap_cons, hd, hd', List.mapM_cons, id_eq]
      exact hdecode.bind fun a ↦ ih.returns fun as ↦ a :: as

end Knows

namespace Alike

variable {site : Site} {e e' : Xml.Element}

theorem string_eq (h : Alike site e e') : string e' = string e := string_congr h.attributes

theorem string?_eq (h : Alike site e e') : string? e' = string? e := by
  funext name
  rw [string?, string?, Xml.Element.attribute?, Xml.Element.attribute?, h.attributes]

/-- The child elements of the only tag that is read. -/
theorem named {α : Type} {s : Site} {tag : String} {f : Xml.Element → Decoder α}
    (h : Alike site e e') (hsite : site.children = [(tag, s)]) (hf : Decodes s f) :
    Decode (partSlots (site.parts e)) ((e.named tag).mapM f) ((e'.named tag).mapM f) := by
  have hnamed (e : Xml.Element) :
      (e.named tag).mapM f = elements (fun c ↦ if c.name = tag then some (f c) else none) e := by
    rw [Xml.Element.named, elements]
    induction e.elements with
    | nil => rfl
    | cons c cs ih => by_cases hc : c.name = tag <;> simp [hc, ih]
  have hknows : Knows site fun c ↦ if c.name = tag then some (f c) else none := by
    constructor
    · intro tag' s' hmem c c' hc hc' hout
      obtain ⟨rfl, rfl⟩ : tag' = tag ∧ s' = s := by simpa [hsite] using hmem
      exact ⟨f c, f c', if_pos hc, if_pos hc', hf hout⟩
    · intro c hc
      refine if_neg fun htag ↦ ?_
      simp [Site.child?, hsite, htag] at hc
  rw [hnamed, hnamed]
  exact hknows.elements h

end Alike

namespace Decodes

variable {α : Type} {site : Site} {f : Xml.Element → Decoder α}

theorem of_alike (h : ∀ {e e' : Xml.Element}, Alike site e e' →
    Decode (site.values e ++ partSlots (site.parts e)) (f e) (f e')) : Decodes site f :=
  fun _ _ hout ↦ slots_eq site _ ▸ h (alike_of_outline hout)

theorem of_values (hsite : site.children = [])
    (h : ∀ {e e' : Xml.Element}, Alike site e e' → Decode (site.values e) (f e) (f e')) :
    Decodes site f :=
  fun _ _ hout ↦ slots_leaf hsite _ ▸ h (alike_of_outline hout)

end Decodes

end Template

end PagedReport
