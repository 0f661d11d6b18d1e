import ClasspathAudit.Proofs.Diff.Exchange
import ClasspathAudit.Proofs.Model.ReleaseLayers
import ClasspathAudit.Proofs.Report.Instants

/-!
A store told by the calls that filled it: an id has the report that was saved last under it, a pair of ids
the difference written last, and a label lists the reports whose last saved form carries it, the newest
first. Stored times sort as texts, and the texts sort as the times.
-/

namespace ClasspathAudit

section

variable {α κ : Type} [DecidableEq κ] {key : α → κ} {xs : List α}

/-- The item takes the place of one with its key. -/
def replaced (key : α → κ) (xs : List α) (new : α) : List α := xs.filter (key · ≠ key new) ++ [new]

theorem mem_replaced {new x : α} : x ∈ replaced key xs new ↔ x ∈ xs ∧ key x ≠ key new ∨ x = new := by
  simp [replaced]

theorem find?_replaced (new : α) (k : κ) :
    (replaced key xs new).find? (key · = k) = if key new = k then some new else xs.find? (key · = k) := by
  rw [replaced, List.find?_append]
  split
  next same =>
    have gone : (xs.filter (key · ≠ key new)).find? (key · = k) = none := by
      rw [List.find?_eq_none]
      intro x member
      simpa [same] using (List.mem_filter.mp member).2
    rw [gone, Option.none_or]
    simp [same]
  next other =>
    have kept : (xs.filter (key · ≠ key new)).find? (key · = k) = xs.find? (key · = k) := by
      rw [List.find?_filter]
      congr 1
      funext x
      by_cases hit : key x = k
      · simp [hit, Ne.symm other]
      · simp [hit]
    rw [kept]
    simp [other]

theorem nodup_replaced (distinct : (xs.map key).Nodup) (new : α) :
    ((replaced key xs new).map key).Nodup := by
  rw [replaced, List.map_append, List.nodup_append]
  refine ⟨distinct.sublist (List.filter_sublist.map key), List.nodup_singleton _, ?_⟩
  intro k member k' single
  obtain ⟨x, inside, rfl⟩ := List.mem_map.mp member
  rw [List.mem_singleton.mp single]
  simpa using (List.mem_filter.mp inside).2

end

namespace ReportStore

/-- What changes a store. -/
inductive Call where
  /-- A report is saved at a time. -/
  | save (now : Timestamp) (r : Report)
  | writeDiff (d : DiffReport)

/-- A report that was saved, and the time that it is listed with. -/
structure Saved where
  report : Report
  created : Timestamp

namespace Saved

def stored (saved : Saved) : StoredReport where
  id := saved.report.id
  title := saved.report.title
  label := saved.report.label
  jars := saved.report.summary.jars
  classes := saved.report.summary.classes
  createdAt := timeText saved.created
  body := saved.report.document.encode .json

/-- What a list tells of the report. -/
def entry (saved : Saved) : StoreEntry where
  id := saved.report.id
  title := saved.report.title
  label := saved.report.label
  jars := saved.report.summary.jars
  classes := saved.report.summary.classes
  createdAt := saved.created.utc

end Saved

def storedDiff (d : DiffReport) : StoredDiff := ⟨d.oldId, d.newId, d.document.encode .json⟩

namespace Call

def apply : Call → ReportStore → ReportStore
  | save now r => ReportStore.save now r
  | writeDiff d => saveDiff d

/-- The report that a call saves, if the call succeeds. A report without time has the time of saving. -/
def saved? : Call → Option Saved
  | save now r => (r.document.write .json).toOption.map fun _ =>
    ⟨r, if r.summary.generatedAt.isZero then now else r.summary.generatedAt⟩
  | writeDiff _ => none

/-- The difference that a call writes, if the call succeeds. -/
def written? : Call → Option DiffReport
  | save _ _ => none
  | writeDiff d => (d.document.write .json).toOption.map fun _ => d

/-- The numbers of a call are of 64 bits, and its report is of a year of four digits in universal time. -/
def Fits : Call → Prop
  | save now r => r.Fits ∧
    (if r.summary.generatedAt.isZero then now else r.summary.generatedAt).Dated
  | writeDiff d => d.Fits

variable (call : Call) (store : ReportStore)

theorem apply_reports : (call.apply store).reports =
    match call.saved? with
    | some saved => replaced StoredReport.id store.reports saved.stored
    | none => store.reports := by
  cases call with
  | writeDiff d =>
    rw [apply, saveDiff]
    split <;> rfl
  | save now r =>
    rw [apply, ReportStore.save, saved?]
    cases written : r.document.write .json with
    | error failure => rfl
    | ok body =>
      rw [(Document.eq_encode_of_write written).1]
      rfl

theorem apply_diffs : (call.apply store).diffs =
    match call.written? with
    | some d => replaced (fun d => (d.oldId, d.newId)) store.diffs (storedDiff d)
    | none => store.diffs := by
  cases call with
  | save now r =>
    rw [apply, ReportStore.save]
    split <;> rfl
  | writeDiff d =>
    rw [apply, saveDiff, written?]
    cases written : d.document.write .json with
    | error failure => rfl
    | ok body =>
      rw [(Document.eq_encode_of_write written).1]
      simp [replaced, storedDiff, Except.toOption]

end Call

/-- The store that calls make from an empty one. -/
def run (calls : List Call) : ReportStore := calls.foldl (fun store call => call.apply store) {}

/-- The report saved last under an id. -/
def lastSaved? (calls : List Call) (id : String) : Option Saved :=
  lastAnswer? (fun call => call.saved?.filter (·.report.id = id)) calls

/-- The difference written last for two ids. -/
def lastWritten? (calls : List Call) (oldId newId : String) : Option DiffReport :=
  lastAnswer? (fun call => call.written?.filter fun d => d.oldId = oldId ∧ d.newId = newId) calls

section

variable (call : Call) (store : ReportStore)

/-- What one call does to the reports: it answers for the id that it saves, and else they answer as
before. -/
theorem find?_apply (id : String) : (call.apply store).reports.find? (·.id = id) =
    ((call.saved?.filter (·.report.id = id)).map Saved.stored).or (store.reports.find? (·.id = id)) := by
  rw [call.apply_reports]
  cases call.saved? with
  | none => rfl
  | some saved =>
    refine (find?_replaced saved.stored id).trans ?_
    have same : saved.stored.id = saved.report.id := rfl
    rw [same, Option.filter_some]
    by_cases hit : saved.report.id = id
    · simp [hit]
    · simp [hit]

theorem findDiff?_apply (oldId newId : String) :
    (call.apply store).diffs.find? (fun d => d.oldId = oldId ∧ d.newId = newId) =
      ((call.written?.filter fun d => d.oldId = oldId ∧ d.newId = newId).map storedDiff).or
        (store.diffs.find? fun d => d.oldId = oldId ∧ d.newId = newId) := by
  have pairs : ∀ diffs : List StoredDiff, (diffs.find? fun d => d.oldId = oldId ∧ d.newId = newId) =
      diffs.find? fun d => (d.oldId, d.newId) = (oldId, newId) := by
    simp only [Prod.mk.injEq, implies_true]
  rw [call.apply_diffs, pairs, pairs]
  cases call.written? with
  | none => rfl
  | some d =>
    refine (find?_replaced (storedDiff d) (oldId, newId)).trans ?_
    rw [Option.filter_some]
    by_cases hit : d.oldId = oldId ∧ d.newId = newId
    · simp [storedDiff, hit]
    · simp [storedDiff, hit]

theorem nodup_apply (distinct : (store.reports.map StoredReport.id).Nodup) :
    ((call.apply store).reports.map StoredReport.id).Nodup := by
  rw [call.apply_reports]
  cases call.saved? with
  | none => exact distinct
  | some saved => exact nodup_replaced distinct saved.stored

end

variable {calls : List Call}

theorem find?_run (id : String) :
    (run calls).reports.find? (·.id = id) = (lastSaved? calls id).map Saved.stored := by
  rw [run, read_foldl (fun store : ReportStore => store.reports.find? (·.id = id))
    (fun store call => find?_apply call store id), lastAnswer?_map]
  exact Option.or_none

theorem findDiff?_run (oldId newId : String) :
    (run calls).diffs.find? (fun d => d.oldId = oldId ∧ d.newId = newId) =
      (lastWritten? calls oldId newId).map storedDiff := by
  rw [run, read_foldl
    (fun store : ReportStore => store.diffs.find? fun d => d.oldId = oldId ∧ d.newId = newId)
    (fun store call => findDiff?_apply call store oldId newId), lastAnswer?_map]
  exact Option.or_none

theorem nodup_run : ((run calls).reports.map StoredReport.id).Nodup := by
  suffices ∀ start : ReportStore, (start.reports.map StoredReport.id).Nodup →
      ((calls.foldl (fun store call => call.apply store) start).reports.map StoredReport.id).Nodup from
    this {} List.nodup_nil
  induction calls with
  | nil => exact fun start distinct => distinct
  | cons call calls ih => exact fun start distinct => ih _ (nodup_apply call start distinct)

/-- What JSON gives back of a record. -/
def roundTrip? {Record : Type} (decode? : ReportFormat → String → Option Record) (document : Document) :
    Option Record :=
  (document.write .json).toOption.bind (decode? .json)

/-- A saved report is one of the calls, and can be read back. -/
theorem lastSaved?_sound (fits : ∀ call ∈ calls, call.Fits) {id : String} {saved : Saved}
    (last : lastSaved? calls id = some saved) :
    saved.report.id = id ∧ saved.created.Dated ∧
      Exchanged saved.report.document Report.decode? saved.report.readBack := by
  obtain ⟨call, member, answer⟩ := exists_of_lastAnswer? last
  obtain ⟨saves, same⟩ := Option.filter_eq_some_iff.mp answer
  refine ⟨of_decide_eq_true same, ?_⟩
  have fit := fits call member
  cases call with
  | writeDiff d => cases saves
  | save now r =>
    obtain ⟨text, written, rfl⟩ := Option.map_eq_some_iff.mp saves
    cases result : r.document.write .json with
    | error failure =>
      rw [result] at written
      cases written
    | ok body =>
      exact ⟨fit.2, Report.exchanged_readBack fit.1 (Report.timely_of_write result)⟩

theorem lastWritten?_sound (fits : ∀ call ∈ calls, call.Fits) {oldId newId : String} {d : DiffReport}
    (last : lastWritten? calls oldId newId = some d) :
    Exchanged d.document DiffReport.decode? d.settled := by
  obtain ⟨call, member, answer⟩ := exists_of_lastAnswer? last
  obtain ⟨writes, -⟩ := Option.filter_eq_some_iff.mp answer
  have fit := fits call member
  cases call with
  | save now r => cases writes
  | writeDiff written =>
    obtain ⟨text, -, rfl⟩ := Option.map_eq_some_iff.mp writes
    exact DiffReport.exchanged_settled fit

section

variable {store : ReportStore} {label : String}

theorem mem_labelled {s : StoredReport} :
    s ∈ store.labelled label ↔ s ∈ store.reports ∧ s.label = label := by
  rw [labelled, List.mem_mergeSort, List.mem_filter, decide_eq_true_eq]

theorem mem_reports_run {s : StoredReport} :
    s ∈ (run calls).reports ↔ ∃ saved, lastSaved? calls s.id = some saved ∧ s = saved.stored := by
  constructor
  · intro member
    have found := find?_of_nodup_map (f := StoredReport.id) nodup_run member
    rw [find?_run, Option.map_eq_some_iff] at found
    obtain ⟨saved, last, same⟩ := found
    exact ⟨saved, last, same.symm⟩
  · rintro ⟨saved, last, same⟩
    have found : (run calls).reports.find? (·.id = s.id) = _ := find?_run s.id
    rw [last] at found
    rw [same]
    exact List.mem_of_find?_eq_some found

theorem labelled_descending :
    (store.labelled label).Pairwise fun a b => b.createdAt ≤ a.createdAt := by
  have sorted : (store.labelled label).Pairwise fun a b => decide (b.createdAt ≤ a.createdAt) = true := by
    refine List.pairwise_mergeSort ?_ ?_ _
    · intro a b c first second
      simp only [decide_eq_true_eq] at first second ⊢
      exact String.le_trans second first
    · intro a b
      simpa using String.le_total b.createdAt a.createdAt
  exact sorted.imp of_decide_eq_true

theorem entryOf_stored {saved : Saved} (dated : saved.created.Dated) :
    entryOf saved.stored = saved.entry := by
  rw [entryOf, Saved.stored, parse?_timeText dated]
  rfl

theorem mem_list_run (fits : ∀ call ∈ calls, call.Fits) {entry : StoreEntry} :
    entry ∈ (run calls).list label ↔
      ∃ saved, lastSaved? calls entry.id = some saved ∧ saved.report.label = label ∧
        entry = saved.entry := by
  rw [list, List.mem_map]
  constructor
  · rintro ⟨s, member, rfl⟩
    obtain ⟨inside, labelled⟩ := mem_labelled.mp member
    obtain ⟨saved, last, rfl⟩ := mem_reports_run.mp inside
    exact ⟨saved, last, labelled, entryOf_stored (lastSaved?_sound fits last).2.1⟩
  · rintro ⟨saved, last, labelled, same⟩
    have sound := lastSaved?_sound fits last
    refine ⟨saved.stored, mem_labelled.mpr ⟨mem_reports_run.mpr ⟨saved, ?_, rfl⟩, labelled⟩, ?_⟩
    · rw [← last, ← sound.1]
      rfl
    · rw [same]
      exact entryOf_stored sound.2.1

theorem nodup_list_run : (((run calls).list label).map StoreEntry.id).Nodup := by
  have ids : ((run calls).list label).map StoreEntry.id =
      ((run calls).labelled label).map StoredReport.id := List.map_map
  rw [ids, labelled, ((List.mergeSort_perm _ _).map _).nodup_iff]
  exact nodup_run.sublist (List.filter_sublist.map _)

/-- Of two stored reports the one with the smaller text of its time is no later. -/
theorem notAfter_entryOf (fits : ∀ call ∈ calls, call.Fits) {a b : StoredReport}
    (member : a ∈ (run calls).labelled label) (member' : b ∈ (run calls).labelled label)
    (below : b.createdAt ≤ a.createdAt) : (entryOf b).createdAt.NotAfter (entryOf a).createdAt := by
  obtain ⟨saved, last, rfl⟩ := mem_reports_run.mp (mem_labelled.mp member).1
  obtain ⟨saved', last', rfl⟩ := mem_reports_run.mp (mem_labelled.mp member').1
  have dated := (lastSaved?_sound fits last).2.1
  have dated' := (lastSaved?_sound fits last').2.1
  rw [entryOf_stored dated, entryOf_stored dated']
  have order : saved'.created.NotAfter saved.created := notAfter_of_timeText_le dated' dated below
  exact order

theorem list_run_newestFirst (fits : ∀ call ∈ calls, call.Fits) :
    ((run calls).list label).Pairwise fun a b => b.createdAt.NotAfter a.createdAt := by
  rw [list, List.pairwise_map]
  exact labelled_descending.imp_of_mem fun member member' => notAfter_entryOf fits member member'

theorem roundTrip?_eq {Record : Type} {decode? : ReportFormat → String → Option Record}
    {document : Document} {result : Record} (exchanged : Exchanged document decode? result) :
    roundTrip? decode? document = some result := by
  rw [roundTrip?, exchanged.written, Except.toOption, Option.bind_some, exchanged.read]

theorem decode?_stored {saved : Saved} {r : Report}
    (exchanged : Exchanged saved.report.document Report.decode? r) :
    Report.decode? .json saved.stored.body = some r := by
  have body : saved.stored.body = saved.report.document.toJson.file := rfl
  rw [body, exchanged.read]

theorem latest_run (fits : ∀ call ∈ calls, call.Fits) {s : StoredReport} {rest : List StoredReport}
    (sorted : (run calls).labelled label = s :: rest) :
    ∃ id saved, lastSaved? calls id = some saved ∧ saved.report.label = label ∧
      (run calls).latest label = some saved.report.readBack ∧
      ∀ entry ∈ (run calls).list label, entry.createdAt.NotAfter saved.created := by
  have member : s ∈ (run calls).labelled label := sorted ▸ List.mem_cons_self
  obtain ⟨inside, labelled⟩ := mem_labelled.mp member
  obtain ⟨saved, last, rfl⟩ := mem_reports_run.mp inside
  obtain ⟨-, dated, exchanged⟩ := lastSaved?_sound fits last
  refine ⟨_, saved, last, labelled, ?_, ?_⟩
  · rw [latest, sorted, List.head?_cons, Option.bind_eq_bind, Option.bind_some,
      decode?_stored exchanged]
  · intro entry listed
    obtain ⟨other, member', rfl⟩ := List.mem_map.mp listed
    have descending : ((run calls).labelled label).Pairwise fun a b => b.createdAt ≤ a.createdAt :=
      labelled_descending
    have below : other.createdAt ≤ saved.stored.createdAt := by
      rw [sorted] at member' descending
      rcases List.mem_cons.mp member' with rfl | later
      · exact String.le_refl _
      · exact (List.pairwise_cons.mp descending).1 other later
    have order := notAfter_entryOf fits member member' below
    rwa [entryOf_stored dated] at order

end

/-- What calls leave in a store. -/
structure Tracks (calls : List Call) (store : ReportStore) : Prop where
  /-- The report saved last under an id comes back as JSON gives it back. -/
  loads : ∀ id saved, lastSaved? calls id = some saved →
    ∃ r, roundTrip? Report.decode? saved.report.document = some r ∧ store.load id = some r
  unknown : ∀ id, lastSaved? calls id = none → store.load id = none
  lists : ∀ label entry, entry ∈ store.list label ↔
    ∃ saved, lastSaved? calls entry.id = some saved ∧ saved.report.label = label ∧ entry = saved.entry
  once : ∀ label, ((store.list label).map StoreEntry.id).Nodup
  newestFirst : ∀ label, (store.list label).Pairwise fun a b => b.createdAt.NotAfter a.createdAt
  none_latest : ∀ label, store.latest label = none ↔ store.list label = []
  latest : ∀ label r, store.latest label = some r →
    ∃ id saved, lastSaved? calls id = some saved ∧ saved.report.label = label ∧
      roundTrip? Report.decode? saved.report.document = some r ∧
      ∀ entry ∈ store.list label, entry.createdAt.NotAfter saved.created
  loadsDiff : ∀ oldId newId d, lastWritten? calls oldId newId = some d →
    ∃ d', roundTrip? DiffReport.decode? d.document = some d' ∧ store.loadDiff oldId newId = some d'
  unknownDiff : ∀ oldId newId, lastWritten? calls oldId newId = none → store.loadDiff oldId newId = none

theorem run_tracks (fits : ∀ call ∈ calls, call.Fits) : Tracks calls (run calls) where
  loads id saved last := by
    have exchanged := (lastSaved?_sound fits last).2.2
    refine ⟨_, roundTrip?_eq exchanged, ?_⟩
    rw [load, find?_run, last, Option.map_some, Option.bind_eq_bind, Option.bind_some,
      decode?_stored exchanged]
  unknown id none := by
    rw [load, find?_run, none]
    rfl
  lists label entry := mem_list_run fits
  once label := nodup_list_run
  newestFirst label := list_run_newestFirst fits
  none_latest label := by
    cases sorted : (run calls).labelled label with
    | nil => simp [latest, list, sorted]
    | cons s rest =>
      obtain ⟨id, saved, -, -, found, -⟩ := latest_run fits sorted
      simp [found, list, sorted]
  latest label r found := by
    cases sorted : (run calls).labelled label with
    | nil => simp [latest, sorted] at found
    | cons s rest =>
      obtain ⟨id, saved, last, labelled, found', newest⟩ := latest_run fits sorted
      rw [found', Option.some.injEq] at found
      exact ⟨id, saved, last, labelled,
        found ▸ roundTrip?_eq (lastSaved?_sound fits last).2.2, newest⟩
  loadsDiff oldId newId d last := by
    have exchanged := lastWritten?_sound fits last
    refine ⟨_, roundTrip?_eq exchanged, ?_⟩
    have body : (storedDiff d).body = d.document.toJson.file := rfl
    rw [loadDiff, findDiff?_run, last, Option.map_some, Option.bind_eq_bind, Option.bind_some, body,
      exchanged.read]
  unknownDiff oldId newId none := by
    rw [loadDiff, findDiff?_run, none]
    rfl

/-- What a call leaves as it was: all that other ids return. A report that is saved under another label
is listed there and no longer under the old one. -/
structure LeavesOthers (call : Call) (store : ReportStore) : Prop where
  loads : ∀ id, (∀ saved ∈ call.saved?, saved.report.id ≠ id) →
    (call.apply store).load id = store.load id
  lists : ∀ label entry, (∀ saved ∈ call.saved?, saved.report.id ≠ entry.id) →
    (entry ∈ (call.apply store).list label ↔ entry ∈ store.list label)
  moves : ∀ saved ∈ call.saved?, ∀ label,
    (∃ entry ∈ (call.apply store).list label, entry.id = saved.report.id) ↔ saved.report.label = label
  latest : call.saved? = none → ∀ label, (call.apply store).latest label = store.latest label
  loadsDiff : ∀ oldId newId, (∀ d ∈ call.written?, ¬ (d.oldId = oldId ∧ d.newId = newId)) →
    (call.apply store).loadDiff oldId newId = store.loadDiff oldId newId

theorem mem_list_iff {store : ReportStore} {label : String} {entry : StoreEntry} :
    entry ∈ store.list label ↔ ∃ s ∈ store.reports, s.label = label ∧ entryOf s = entry := by
  simp only [list, List.mem_map, mem_labelled, and_assoc]

theorem call_leavesOthers (call : Call) (store : ReportStore) : LeavesOthers call store where
  loads id other := by
    have kept : call.saved?.filter (·.report.id = id) = none := by
      rw [Option.filter_eq_none_iff]
      intro saved saves
      simpa using other saved saves
    rw [load, load, find?_apply, kept, Option.map_none, Option.none_or]
  lists label entry other := by
    rw [mem_list_iff, mem_list_iff, call.apply_reports]
    cases saves : call.saved? with
    | none => rfl
    | some saved =>
      have apart : saved.stored.id ≠ entry.id := other saved saves
      constructor
      · rintro ⟨s, member, labelled, rfl⟩
        rcases mem_replaced.mp member with ⟨old, -⟩ | rfl
        · exact ⟨s, old, labelled, rfl⟩
        · exact absurd rfl apart
      · rintro ⟨s, old, labelled, rfl⟩
        exact ⟨s, mem_replaced.mpr (.inl ⟨old, apart.symm⟩), labelled, rfl⟩
  moves saved saves label := by
    simp only [mem_list_iff, call.apply_reports, Option.mem_def.mp saves]
    constructor
    · rintro ⟨entry, ⟨s, member, labelled, rfl⟩, same⟩
      rcases mem_replaced.mp member with ⟨-, other⟩ | rfl
      · exact absurd same other
      · exact labelled
    · intro labelled
      exact ⟨_, ⟨_, mem_replaced.mpr (.inr rfl), labelled, rfl⟩, rfl⟩
  latest silent label := by
    rw [latest, latest, labelled, labelled, call.apply_reports, silent]
  loadsDiff oldId newId other := by
    have kept : (call.written?.filter fun d => d.oldId = oldId ∧ d.newId = newId) = none := by
      rw [Option.filter_eq_none_iff]
      intro d writes
      simpa using other d writes
    rw [loadDiff, loadDiff, findDiff?_apply, kept, Option.map_none, Option.none_or]

/-- The store, whatever calls filled it, answers with what was saved last, lists a label from the newest
report to the oldest, and is changed by a call only under the ids of that call. -/
theorem store_tracks_calls (calls : List Call) (fits : ∀ call ∈ calls, call.Fits) :
    Tracks calls (run calls) ∧ ∀ call, LeavesOthers call (run calls) :=
  ⟨run_tracks fits, fun call => call_leavesOthers call (run calls)⟩

/-- The report of the first day under the label of the second. -/
def relabelled : Report := { monday with label := "daily" }

/-- The reports of two days, the first one saved again under the label of the second, and their
difference. -/
def twoDays : List Call :=
  [.save .zero monday, .save .zero tuesday, .save .zero relabelled, .writeDiff (.between monday tuesday)]

theorem fits_twoDays : ∀ call ∈ twoDays, call.Fits := by
  have first : monday.Fits ∧ monday.summary.generatedAt.Dated :=
    ⟨regular_monday.writable.fits, by decide, by decide, by decide⟩
  have second : tuesday.Fits ∧ tuesday.summary.generatedAt.Dated :=
    ⟨regular_tuesday.writable.fits, by decide, by decide, by decide⟩
  have moved : relabelled.Fits := ⟨first.1.summary, first.1.sections⟩
  have compared := (DiffReport.writable_between regular_monday regular_tuesday).fits
  simp only [twoDays, List.forall_mem_cons]
  exact ⟨first, second, ⟨moved, first.2⟩, compared, List.forall_mem_nil _⟩

/-- The report that was saved again is read back as it was saved last, and has left its old label. -/
theorem store_tracks_twoDays : (∀ call ∈ twoDays, call.Fits) ∧
    (∃ r, roundTrip? Report.decode? relabelled.document = some r ∧
      (run twoDays).load "2024-01-01" = some r) ∧
    (∃ entry ∈ (run twoDays).list "daily", entry.id = "2024-01-01") ∧
    ∀ entry ∈ (run twoDays).list "", entry.id ≠ "2024-01-01" := by
  have tracks := (store_tracks_calls twoDays fits_twoDays).1
  have last : lastSaved? twoDays "2024-01-01" = some ⟨relabelled, monday.summary.generatedAt⟩ := rfl
  have loaded := tracks.loads _ _ last
  have listed : Saved.entry ⟨relabelled, monday.summary.generatedAt⟩ ∈ (run twoDays).list "daily" :=
    (tracks.lists _ _).mpr ⟨_, last, rfl, rfl⟩
  refine ⟨fits_twoDays, loaded, ⟨_, listed, rfl⟩, ?_⟩
  intro entry unlisted same
  obtain ⟨saved, last', unlabelled, -⟩ := (tracks.lists "" entry).mp unlisted
  rw [same, last, Option.some.injEq] at last'
  rw [← last'] at unlabelled
  exact absurd unlabelled (by decide)

end ReportStore

end ClasspathAudit
