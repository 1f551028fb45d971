import Mathlib.Data.List.DropRight
import Mathlib.Data.String.Basic
import PagedReport.Generator.Drawing

/-!
# Histories of a generator

A generator is asked for one thing after another, and each request may fail.  What it holds
afterwards can be told from the requests: the report that was read last, and for every key what the
last members with that key said, since the data was forgotten.
-/

namespace PagedReport

theorem getLast?_filterMap_concat {α β : Type*} (f : α → Option β) (xs : List α) (x : α) :
    ((xs ++ [x]).filterMap f).getLast? = (f x <|> (xs.filterMap f).getLast?) := by
  rw [List.filterMap_append, List.getLast?_append]
  cases hx : f x <;> simp [hx]

/-! ## Members set one after another -/

namespace Members

/-- Members are in the order of their keys and each key is there once. -/
def Sorted (m : Members) : Prop := m.Pairwise fun e e' ↦ e.1 < e'.1

/-- What entries give for a key; of two with one key the later counts. -/
def last? (key : String) (entries : Members) : Option Value :=
  (entries.filterMap fun e ↦ if e.1 = key then some e.2 else none).getLast?

theorem mem_put {key : String} {v : Value} {m : Members} {e : String × Value}
    (he : e ∈ m.put key v) : e = (key, v) ∨ e ∈ m := by
  fun_induction put key v m <;> grind

theorem Sorted.put {m : Members} (hm : Sorted m) (key : String) (v : Value) :
    Sorted (m.put key v) := by
  induction m with
  | nil => exact List.pairwise_singleton _ _
  | cons e m ih =>
      obtain ⟨hfirst, hrest⟩ := List.pairwise_cons.mp hm
      unfold Members.put
      split
      · next hkey =>
          refine List.pairwise_cons.mpr ⟨?_, hrest⟩
          intro e' he'
          rw [hkey]
          exact hfirst e' he'
      · next hne =>
          split
          · next hlt =>
              refine List.pairwise_cons.mpr ⟨?_, hm⟩
              intro e' he'
              rcases List.mem_cons.mp he' with rfl | he'
              · exact hlt
              · exact hlt.trans (hfirst e' he')
          · next hlt =>
              refine List.pairwise_cons.mpr ⟨?_, ih hrest⟩
              intro e' he'
              rcases mem_put he' with rfl | he'
              · exact lt_of_le_of_ne (not_lt.mp hlt) (Ne.symm hne)
              · exact hfirst e' he'

theorem Sorted.merge {m : Members} (hm : Sorted m) (newer : Members) : Sorted (m.merge newer) := by
  induction newer generalizing m with
  | nil => exact hm
  | cons e newer ih => exact ih (hm.put e.1 e.2)

theorem get?_put (key : String) (v : Value) (m : Members) (key' : String) :
    (m.put key v).get? key' = if key' = key then some v else m.get? key' := by
  unfold get?
  fun_induction put key v m <;> grind

theorem last?_concat (key : String) (entries : Members) (e : String × Value) :
    last? key (entries ++ [e]) = if key = e.1 then some e.2 else entries.last? key := by
  unfold last?
  rw [getLast?_filterMap_concat]
  by_cases hkey : e.1 = key
  · rw [if_pos hkey, if_pos hkey.symm]
    rfl
  · rw [if_neg hkey, if_neg (Ne.symm hkey)]
    rfl

theorem get?_merge (m newer : Members) (key : String) :
    (m.merge newer).get? key = (newer.last? key <|> m.get? key) := by
  induction newer using List.reverseRecOn with
  | nil => rfl
  | append_singleton newer e ih =>
      have hmerge : m.merge (newer ++ [e]) = (m.merge newer).put e.1 e.2 := List.foldl_concat ..
      rw [hmerge, get?_put, last?_concat, ih]
      split <;> rfl

end Members

/-! ## What is read -/

namespace Load

/-- The report that a request to load a template reads. -/
def report? (files : Files) : Load → Option Report
  | template text => (Template.read text).1.toOption
  | templateBytes bytes => (Template.readBytes bytes).1.toOption
  | templateAt path => (Template.readAt files path).1.toOption
  | _ => none

/-- The members that a request to load data reads. -/
def members? (files : Files) : Load → Option Members
  | data text => (membersOf text).toOption
  | dataAt path => (files.text path).toOption.bind fun text ↦ (membersOf text).toOption
  | members m => some m
  | _ => none

def resets : Load → Bool
  | reset => true
  | _ => false

theorem ofTemplate_cases (o : Template.Outcome) :
    (∃ r, o.1.toOption = some r ∧ (ofTemplate o).1 = .ok (.report r)) ∨
      o.1.toOption = none ∧ ∃ e, (ofTemplate o).1 = .error e := by
  obtain ⟨result, warnings⟩ := o
  cases result with
  | error e => exact .inr ⟨rfl, _, rfl⟩
  | ok r => exact .inl ⟨r, rfl, rfl⟩

theorem ofMembers_cases (o : Except ReportError Members) :
    (∃ m, o.toOption = some m ∧ (ofMembers o).1 = .ok (.merge m)) ∨
      o.toOption = none ∧ ∃ e, (ofMembers o).1 = .error e := by
  cases o with
  | error e => exact .inr ⟨rfl, _, rfl⟩
  | ok m => exact .inl ⟨m, rfl, rfl⟩

/-- All that reading can come to. -/
inductive Reads (files : Files) (l : Load) : Prop
  | report (r : Report) (hreport : l.report? files = some r) (hmembers : l.members? files = none)
      (hresets : l.resets = false) (hchange : (l.change files).1 = .ok (.report r))
  | members (m : Members) (hreport : l.report? files = none) (hmembers : l.members? files = some m)
      (hresets : l.resets = false) (hchange : (l.change files).1 = .ok (.merge m))
  | reset (hreport : l.report? files = none) (hmembers : l.members? files = none)
      (hresets : l.resets = true) (hchange : (l.change files).1 = .ok .clear)
  | fails (e : ReportError) (hreport : l.report? files = none) (hmembers : l.members? files = none)
      (hresets : l.resets = false) (hchange : (l.change files).1 = .error e)

theorem reads (files : Files) (l : Load) : l.Reads files := by
  have htemplate {o : Template.Outcome} (hreport : l.report? files = o.1.toOption)
      (hmembers : l.members? files = none) (hresets : l.resets = false)
      (hchange : l.change files = ofTemplate o) : l.Reads files := by
    rcases ofTemplate_cases o with ⟨r, hr, hread⟩ | ⟨hr, e, hread⟩
    · exact .report r (hreport.trans hr) hmembers hresets (hchange ▸ hread)
    · exact .fails e (hreport.trans hr) hmembers hresets (hchange ▸ hread)
  have hdata {o : Except ReportError Members} (hreport : l.report? files = none)
      (hmembers : l.members? files = o.toOption) (hresets : l.resets = false)
      (hchange : l.change files = ofMembers o) : l.Reads files := by
    rcases ofMembers_cases o with ⟨m, hm, hread⟩ | ⟨hm, e, hread⟩
    · exact .members m hreport (hmembers.trans hm) hresets (hchange ▸ hread)
    · exact .fails e hreport (hmembers.trans hm) hresets (hchange ▸ hread)
  cases l with
  | template text => exact htemplate rfl rfl rfl rfl
  | templateBytes bytes => exact htemplate rfl rfl rfl rfl
  | templateAt path => exact htemplate rfl rfl rfl rfl
  | data text => exact hdata rfl rfl rfl rfl
  | dataAt path =>
      cases htext : files.text path with
      | error e =>
          refine .fails (.file .data path e) rfl ?_ rfl ?_
          · rw [members?, htext]
            rfl
          · rw [change, htext]
      | ok text =>
          refine hdata (o := membersOf text) rfl ?_ rfl ?_
          · rw [members?, htext]
            rfl
          · rw [change, htext]
  | members m => exact .members m rfl rfl rfl rfl
  | reset => exact .reset rfl rfl rfl rfl

end Load

namespace Generator

/-! ## Requests -/

/-- What a generator is asked for, with the files or the disk that it meets then. -/
inductive Request : Type 1 where
  | load (files : Files) (l : Load)
  | render {D Output : Type} [Device Float D Output] (files : Files) (c : Canvas Float D)
  | document (files : Files) (sink : Sink)
  | generate (disk : Disk) (path : String)

inductive Answer : Type 1 where
  | loaded (outcome : Outcome Unit)
  | rendered {D : Type} (c : Canvas Float D) (result : Except ReportError Unit)
  | document (outcome : Outcome Pdf.Document)
  | generated (disk : Disk) (outcome : Outcome Unit)

def Answer.Fails : Answer → Prop
  | loaded outcome => ∃ e, outcome.1 = .error e
  | rendered _ result => ∃ e, result = .error e
  | document outcome => ∃ e, outcome.1 = .error e
  | generated _ outcome => ∃ e, outcome.1 = .error e

namespace Request

def report? : Request → Option Report
  | load files l => l.report? files
  | _ => none

def members? : Request → Option Members
  | load files l => l.members? files
  | _ => none

def resets : Request → Bool
  | load _ l => l.resets
  | _ => false

def loads : Request → Bool
  | load _ _ => true
  | _ => false

/-- The requests after the last one that forgot the data. -/
def sinceReset (requests : List Request) : List Request := requests.rtakeWhile fun r ↦ !r.resets

theorem sinceReset_concat (requests : List Request) (request : Request) :
    sinceReset (requests ++ [request]) =
      if request.resets then [] else sinceReset requests ++ [request] := by
  unfold sinceReset
  rw [List.rtakeWhile_concat]
  cases request.resets <;> rfl

end Request

def ask (g : Generator) : Request → Generator × Answer
  | .load files l => ((g.load files l).1, .loaded (g.load files l).2)
  | @Request.render _ _ _ files c =>
    let (c, result) := g.render files c
    (g, .rendered c result)
  | .document files sink => (g, .document (g.document files sink))
  | .generate disk path =>
    (g, .generated ((g.generate path).run disk).1 ((g.generate path).run disk).2)

/-- A generator after requests, whatever the answers were. -/
def asked (requests : List Request) (g : Generator) : Generator :=
  requests.foldl (fun g request ↦ (g.ask request).1) g

theorem asked_concat (requests : List Request) (request : Request) (g : Generator) :
    asked (requests ++ [request]) g = ((asked requests g).ask request).1 := List.foldl_concat ..

theorem load_ok {files : Files} {l : Load} {change : Change} (h : (l.change files).1 = .ok change)
    (g : Generator) : (g.load files l).1 = g.apply change ∧ (g.load files l).2.1 = .ok () := by
  unfold load
  generalize l.change files = o at h
  obtain ⟨result, warnings⟩ := o
  cases h
  exact ⟨rfl, rfl⟩

theorem load_error {files : Files} {l : Load} {e : ReportError}
    (h : (l.change files).1 = .error e) (g : Generator) :
    (g.load files l).1 = g ∧ (g.load files l).2.1 = .error e := by
  unfold load
  generalize l.change files = o at h
  obtain ⟨result, warnings⟩ := o
  cases h
  exact ⟨rfl, rfl⟩

/-- What a load leaves, told by what it reads. -/
theorem load_eq (files : Files) (l : Load) (g : Generator) :
    (g.load files l).1 =
      { options := g.options
        report := l.report? files <|> g.report
        data := if l.resets then [] else g.data.merge ((l.members? files).getD []) } := by
  rcases l.reads files with ⟨r, hreport, hmembers, hresets, hchange⟩ |
    ⟨m, hreport, hmembers, hresets, hchange⟩ | ⟨hreport, -, hresets, hchange⟩ |
    ⟨e, hreport, hmembers, hresets, hchange⟩
  · rw [(load_ok hchange g).1, hreport, hmembers, hresets]
    rfl
  · rw [(load_ok hchange g).1, hreport, hmembers, hresets]
    rfl
  · rw [(load_ok hchange g).1, hreport, hresets]
    rfl
  · rw [(load_error hchange g).1, hreport, hmembers, hresets]
    rfl

theorem load_fails_iff (g : Generator) (files : Files) (l : Load) :
    (∃ e, (g.load files l).2.1 = .error e) ↔
      l.report? files = none ∧ l.members? files = none ∧ l.resets = false := by
  rcases l.reads files with ⟨r, hreport, -, -, hchange⟩ | ⟨m, -, hmembers, -, hchange⟩ |
    ⟨-, -, hresets, hchange⟩ | ⟨e, hreport, hmembers, hresets, hchange⟩
  · simp [load_ok hchange, hreport]
  · simp [load_ok hchange, hmembers]
  · simp [load_ok hchange, hresets]
  · simp [load_error hchange, hreport, hmembers, hresets]

theorem ask_of_fails {g : Generator} {request : Request} (h : (g.ask request).2.Fails) :
    (g.ask request).1 = g := by
  cases request with
  | load files l =>
      have hfails : ∃ e, (g.load files l).2.1 = .error e := h
      obtain ⟨e, he⟩ := hfails
      cases hchange : (l.change files).1 with
      | error => exact (load_error hchange g).1
      | ok change =>
          rw [(load_ok hchange g).2] at he
          cases he
  | render files c => rfl
  | document files sink => rfl
  | generate disk path => rfl

/-! ## What is held after a history -/

/-- A generator holds what the requests so far have left. -/
structure Reflects (options : Options) (requests : List Request) (g : Generator) : Prop where
  options : g.options = options
  report : g.report = (requests.filterMap Request.report?).getLast?
  sorted : g.data.Sorted
  data : ∀ key, g.data.get? key =
    (((Request.sinceReset requests).filterMap Request.members?).filterMap
      (Members.last? key)).getLast?

theorem Reflects.start (options : Options) : Reflects options [] { options } where
  options := rfl
  report := rfl
  sorted := List.Pairwise.nil
  data _ := rfl

variable {options : Options} {requests : List Request} {g : Generator}

/-- One request more is told by what it reads. -/
theorem Reflects.next (hg : Reflects options requests g) {request : Request} {g' : Generator}
    (hoptions : g'.options = g.options) (hreport : g'.report = (request.report? <|> g.report))
    (hdata : g'.data = if request.resets then [] else g.data.merge (request.members?.getD [])) :
    Reflects options (requests ++ [request]) g' where
  options := hoptions.trans hg.options
  report := by rw [getLast?_filterMap_concat, hreport, hg.report]
  sorted := by
    rw [hdata]
    split
    · exact List.Pairwise.nil
    · exact hg.sorted.merge _
  data key := by
    rw [hdata, Request.sinceReset_concat]
    split
    · rfl
    · rw [List.filterMap_filterMap, getLast?_filterMap_concat, ← List.filterMap_filterMap,
        ← hg.data key, Members.get?_merge]
      cases request.members? <;> rfl

theorem Reflects.ask (hg : Reflects options requests g) (request : Request) :
    Reflects options (requests ++ [request]) (g.ask request).1 := by
  cases request with
  | load files l =>
      have hload : (g.ask (.load files l)).1 = (g.load files l).1 := rfl
      rw [hload, load_eq]
      exact hg.next rfl rfl rfl
  | render files c => exact hg.next rfl rfl rfl
  | document files sink => exact hg.next rfl rfl rfl
  | generate disk path => exact hg.next rfl rfl rfl

theorem asked_filter_loads (requests : List Request) (g : Generator) :
    asked (requests.filter Request.loads) g = asked requests g := by
  induction requests generalizing g with
  | nil => rfl
  | cons request requests ih =>
      cases request with
      | load files l => exact ih (g.load files l).1
      | render files c => exact ih g
      | document files sink => exact ih g
      | generate disk path => exact ih g

/-- Whatever a new generator is asked for, it holds the report that was read last and for each key
what was read for it last since the data was forgotten.  What fails leaves it alone, and so does
drawing, and a load fails only if there is nothing to read. -/
theorem asked_reflects (options : Options) (requests : List Request) :
    let g := asked requests { options }
    Reflects options requests g ∧
      (∀ request, (g.ask request).2.Fails → (g.ask request).1 = g) ∧
      (∀ files l, (g.ask (.load files l)).2.Fails ↔
        l.report? files = none ∧ l.members? files = none ∧ l.resets = false) ∧
      asked (requests.filter Request.loads) { options } = g := by
  intro g
  refine ⟨?_, fun request ↦ ask_of_fails, load_fails_iff g, asked_filter_loads requests _⟩
  induction requests using List.reverseRecOn with
  | nil => exact .start options
  | append_singleton requests request ih =>
      have hnext := Reflects.ask ih request
      rw [← asked_concat] at hnext
      exact hnext

end Generator

end PagedReport
