import EdaLab.RunPages
/-!
# RunScan — a complete scan of the Runs, under writes

A scan is what `next_cursor` leads to from the first page until it is null.  `scan_of_quiet`: it returns every Run that
stood still exactly once and in descending order, where no write moves the Run a page with a successor ends with between
the page's id query and that Run's own read, and no NULL among the ids takes the place of a Run.  `moved_page_end_repeats`
and `null_id_hides_older` are the scans in which one does.
-/
namespace EdaLab

open Relational Trace Keyset

/-! ## The cursor and the keyset -/

/-- The cursor that stands for a position. -/
def cursorOf (k : ℚ ×ₗ String) : CursorKey := (.finite (ofLex k).1, (ofLex k).2)

theorem decode_encode_position (py : Runtime) {r : RunRow} (h : PyFloat.IsDouble r.updatedAt) :
    decodeCursor py (some (encodeCursor r)) = .ok (some (cursorOf r.position)) := decode_encode_cursor py h

theorem beforeCursor_eq (bound : Option (ℚ ×ₗ String)) (r : RunRow) :
    r.beforeCursor (bound.map cursorOf) = below bound r.position := by
  cases bound with
  | none => rfl
  | some k =>
    rw [Bool.eq_iff_iff, below_some, Prod.Lex.lt_iff]
    have heq : (ofLex k).1 = r.updatedAt ↔ r.updatedAt = (ofLex k).1 := eq_comm
    simp only [Option.map_some, RunRow.beforeCursor, Option.all_some, cursorOf, PyFloat.gt, PyFloat.finite.injEq,
      Bool.or_eq_true, Bool.and_eq_true, decide_eq_true_eq, RunRow.position, ofLex_toLex, heq]

/-- No two Runs have one position. -/
theorem positions_nodup (t : Table RunRow.jobId) (p : RunRow → Bool) : ((t.rows.filter p).map RunRow.position).Nodup := by
  have hkeys : ((t.rows.filter p).map RunRow.jobId).Nodup := t.keysNodup.sublist (List.filter_sublist.map _)
  have heq : ((t.rows.filter p).map RunRow.position).map (fun k => (ofLex k).2) = (t.rows.filter p).map RunRow.jobId := by
    rw [List.map_map]
    rfl
  rw [← heq] at hkeys
  exact hkeys.of_map

/-- Where an id stands, a NULL below every other. -/
def idPlace : Option String → WithBot String
  | none   => ⊥
  | some j => j

theorem idPlace_le_iff {i j : Option String} :
    idPlace j ≤ idPlace i ↔ j.all (fun j => i.any (fun i => decide (j ≤ i))) = true := by
  cases j with
  | none => exact iff_of_true bot_le rfl
  | some j =>
    cases i with
    | none => exact iff_of_false (WithBot.not_coe_le_bot j) Bool.false_ne_true
    | some i => exact WithBot.coe_le_coe.trans (by simp)

/-- Where an entry stands among all that are listed. -/
def entryPosition (x : Time × Option String) : ℚ ×ₗ WithBot String := toLex (x.1, idPlace x.2)

theorem entryPosition_injective : Function.Injective entryPosition := by
  rintro ⟨t, i⟩ ⟨u, j⟩ h
  obtain ⟨rfl, hid⟩ := Prod.mk.inj (toLex.injective h)
  cases i <;> cases j <;> simp_all [idPlace]

theorem listedBefore_iff {a b : Time × Option String} : listedBefore a b = true ↔ entryPosition b ≤ entryPosition a := by
  rw [entryPosition, entryPosition, Prod.Lex.toLex_le_toLex, idPlace_le_iff]
  simp only [listedBefore, Bool.or_eq_true, Bool.and_eq_true, decide_eq_true_eq]

/-- The ids in their order are one list, whatever order the rows are in. -/
theorem entries_sorted (l : List (Time × Option String)) :
    (l.insertionSort (fun a b => listedBefore a b = true)).Pairwise (fun a b => listedBefore a b = true) := by
  have : Std.Total (fun a b : Time × Option String => listedBefore a b = true) :=
    ⟨fun a b => (le_total (entryPosition b) (entryPosition a)).imp listedBefore_iff.2 listedBefore_iff.2⟩
  have : IsTrans (Time × Option String) (fun a b => listedBefore a b = true) :=
    ⟨fun a b c hab hbc => listedBefore_iff.2 ((listedBefore_iff.1 hbc).trans (listedBefore_iff.1 hab))⟩
  exact List.pairwise_insertionSort _ _

theorem entries_antisymm {a b : Time × Option String} (hab : listedBefore a b = true) (hba : listedBefore b a = true) :
    a = b := entryPosition_injective (le_antisymm (listedBefore_iff.1 hba) (listedBefore_iff.1 hab))

/-- The entries with an id, in their order, are the Runs in theirs. -/
theorem named_entries (rows : List RunRow) (nameless : List Time) :
    ((rows.map RunRow.entry ++ nameless.map (fun t => (t, none))).insertionSort (fun a b => listedBefore a b = true)).filter
      (fun x => x.2.isSome) = (descending RunRow.position rows).map RunRow.entry := by
  refine List.Perm.eq_of_pairwise (fun a b _ _ => entries_antisymm) ((entries_sorted _).filter _) ?_ ?_
  · rw [List.pairwise_map]
    refine (descending_pairwise RunRow.position rows).imp (fun {a b} hab => listedBefore_iff.2 ?_)
    rw [RunRow.position, RunRow.position, Prod.Lex.toLex_le_toLex] at hab
    rw [entryPosition, entryPosition, Prod.Lex.toLex_le_toLex]
    exact hab.imp_right (fun h => ⟨h.1, WithBot.coe_le_coe.2 h.2⟩)
  · have hfilter : (rows.map RunRow.entry ++ nameless.map (fun t => (t, none))).filter (fun x => x.2.isSome) =
        rows.map RunRow.entry := by
      rw [List.filter_append, List.filter_eq_self.2, List.filter_eq_nil_iff.2, List.append_nil]
      · intro x hx
        obtain ⟨t, -, rfl⟩ := List.mem_map.1 hx
        exact Bool.false_ne_true
      · intro x hx
        obtain ⟨r, -, rfl⟩ := List.mem_map.1 hx
        rfl
    have hperm := (List.perm_insertionSort (fun a b => listedBefore a b = true)
      (rows.map RunRow.entry ++ nameless.map (fun t => (t, none)))).filter (fun x => x.2.isSome)
    rw [hfilter] at hperm
    exact hperm.trans ((List.perm_insertionSort _ rows).map RunRow.entry).symm

/-- A page's ids leave out no Run where there is a NULL among them. -/
def Store.Spares (db : Db) (unnamed : List Time) (status : Option String) (limit : Nat) (cursor : Option CursorKey) : Prop :=
  none ∈ Store.listRunIds db unnamed status limit cursor → ∀ r ∈ db.runs.rows, r.hasStatus status = true →
    r.beforeCursor cursor = true → some r.jobId ∈ Store.listRunIds db unnamed status limit cursor

instance (db : Db) (unnamed : List Time) (status : Option String) (limit : Nat) (cursor : Option CursorKey) :
    Decidable (Store.Spares db unnamed status limit cursor) :=
  inferInstanceAs (Decidable (none ∈ Store.listRunIds db unnamed status limit cursor → ∀ r ∈ db.runs.rows,
    r.hasStatus status = true → r.beforeCursor cursor = true →
      some r.jobId ∈ Store.listRunIds db unnamed status limit cursor))

/-- **The ids of a page that leaves out no Run** are those of the first Runs. -/
theorem listRunIds_named {db : Db} {unnamed : List Time} {status : Option String} {n : Nat} {bound : Option (ℚ ×ₗ String)}
    (h : Store.Spares db unnamed status n (bound.map cursorOf)) :
    (Store.listRunIds db unnamed status n (bound.map cursorOf)).filterMap id =
      (select RunRow.position (db.runs.rows.filter (fun r => r.hasStatus status)) bound n).map (·.jobId) := by
  have hrows : db.runs.rows.filter (fun r => r.hasStatus status && r.beforeCursor (bound.map cursorOf)) =
      (db.runs.rows.filter (fun r => r.hasStatus status)).filter (fun r => below bound r.position) := by
    rw [List.filter_filter]
    congr 1
    funext r
    rw [beforeCursor_eq, Bool.and_comm]
  have hnamed : (Store.listed db unnamed status (bound.map cursorOf)).filter (fun x => x.2.isSome) =
      (descending RunRow.position ((db.runs.rows.filter (fun r => r.hasStatus status)).filter
        (fun r => below bound r.position))).map RunRow.entry := by
    rw [Store.listed, hrows]
    exact named_entries _ _
  have hnodup : ((Store.listed db unnamed status (bound.map cursorOf)).filter (fun x => x.2.isSome)).Nodup := by
    have hkeys : ((descending RunRow.position ((db.runs.rows.filter (fun r => r.hasStatus status)).filter
        (fun r => below bound r.position))).map (·.jobId)).Nodup := by
      refine ((List.perm_insertionSort _ _).map _).nodup_iff.2 ?_
      exact db.runs.keysNodup.sublist ((List.filter_sublist.trans List.filter_sublist).map _)
    rw [hnamed]
    refine List.Nodup.of_map (fun x : Time × Option String => x.2) ?_
    rw [List.map_map]
    have hsome := hkeys.map (Option.some_injective String)
    rwa [List.map_map] at hsome
  have htake : ((Store.listed db unnamed status (bound.map cursorOf)).take n).filter (fun x => x.2.isSome) =
      ((Store.listed db unnamed status (bound.map cursorOf)).filter (fun x => x.2.isSome)).take n := by
    refine take_filter hnodup ?_
    rintro ⟨x, hx, hnone⟩ y hy hsome
    obtain ⟨r, hr, rfl⟩ : ∃ r ∈ db.runs.rows.filter (fun r => r.hasStatus status && r.beforeCursor (bound.map cursorOf)),
        RunRow.entry r = y := by
      have hmem := (List.mem_filter.2 ⟨hy, hsome⟩ : y ∈ (Store.listed db unnamed status (bound.map cursorOf)).filter
        (fun x => x.2.isSome))
      rw [hnamed, ← hrows] at hmem
      obtain ⟨r, hr, rfl⟩ := List.mem_map.1 hmem
      exact ⟨r, mem_descending.1 hr, rfl⟩
    obtain ⟨hrow, hlisted⟩ := List.mem_filter.1 hr
    rw [Bool.and_eq_true] at hlisted
    have hnull : none ∈ Store.listRunIds db unnamed status n (bound.map cursorOf) :=
      List.mem_map.2 ⟨x, hx, Option.not_isSome_iff_eq_none.1 (by rw [hnone]; exact Bool.false_ne_true)⟩
    obtain ⟨z, hz, hid⟩ := List.mem_map.1 (h hnull r hrow hlisted.1 hlisted.2)
    -- the entry with the Run's id is the Run's
    obtain ⟨r', hr', rfl⟩ : ∃ r' ∈ db.runs.rows, RunRow.entry r' = z := by
      have hmem := (List.mem_filter.2 ⟨List.mem_of_mem_take hz, by rw [hid]; rfl⟩ :
        z ∈ (Store.listed db unnamed status (bound.map cursorOf)).filter (fun x => x.2.isSome))
      rw [hnamed, ← hrows] at hmem
      obtain ⟨r', hr', rfl⟩ := List.mem_map.1 hmem
      exact ⟨r', (List.mem_filter.1 (mem_descending.1 hr')).1, rfl⟩
    have hsame := db.runs.get_of_mem hr'
    rw [Option.some.inj hid, db.runs.get_of_mem hrow] at hsame
    rw [Option.some.inj hsame]
    exact hz
  calc (Store.listRunIds db unnamed status n (bound.map cursorOf)).filterMap id
      = ((Store.listed db unnamed status (bound.map cursorOf)).take n).filterMap (·.2) := by
        rw [Store.listRunIds, List.filterMap_map]
        rfl
    _ = (((Store.listed db unnamed status (bound.map cursorOf)).take n).filter (fun x => x.2.isSome)).filterMap (·.2) := by
        rw [List.filterMap_filter]
        congr 1
        funext x
        cases hx : x.2 with
        | none => rfl
        | some j => rfl
    _ = (select RunRow.position (db.runs.rows.filter (fun r => r.hasStatus status)) bound n).map (·.jobId) := by
        rw [htake, hnamed, ← List.map_take, List.filterMap_map, select]
        exact congrFun List.filterMap_eq_map _

/-! ## What a call leaves of the Runs -/

/-- Every `updated_at` is a double, as the column is. -/
def Db.StoresDoubles (db : Db) : Prop := ∀ j r, db.runs.get j = some r → PyFloat.IsDouble r.updatedAt

/-- A call stamps the Runs it writes with the clock, and removes none. -/
theorem run_after (b : Backend) (now : Time) (db : Db) (op : StoreOp) (j : String) :
    (op.after b now db).runs.get j = db.runs.get j ∨ ∃ r, (op.after b now db).runs.get j = some r ∧ r.updatedAt = now := by
  cases runs_after b now db op j with
  | same hget => exact Or.inl hget
  | created _ _ _ _ _ _ _ _ hget _ => exact Or.inr ⟨_, hget, rfl⟩
  | updated _ _ _ _ hget => exact Or.inr ⟨_, hget, rfl⟩
  | claimed _ _ _ _ _ _ hget _ => exact Or.inr ⟨_, hget, rfl⟩
  | closed _ _ _ _ _ _ _ hget _ => exact Or.inr ⟨_, hget, rfl⟩

theorem storesDoubles_after {b : Backend} {now : Time} {db : Db} (op : StoreOp) (h : db.StoresDoubles)
    (hnow : PyFloat.IsDouble now) : (op.after b now db).StoresDoubles := by
  intro j r hr
  rcases run_after b now db op j with hsame | ⟨r', hr', hstamp⟩
  · exact h j r (hsame ▸ hr)
  · obtain rfl : r = r' := Option.some.inj (hr.symm.trans hr')
    rw [hstamp]
    exact hnow

theorem run_stays {b : Backend} {now : Time} {db : Db} (op : StoreOp) {j : String} (h : (db.runs.get j).isSome = true) :
    ((op.after b now db).runs.get j).isSome = true := by
  rcases run_after b now db op j with hsame | ⟨r, hr, -⟩
  · rwa [hsame]
  · rw [hr]
    rfl

/-! ## The conditions on a run -/

/-- The Run that `next_cursor` will be made of, until its row is read. -/
def Listing.awaited (l : Listing) : Option String :=
  if l.request.limit < (l.ids.filterMap id).length then
    ((l.ids.filterMap id)[l.request.limit - 1]?).filter (fun j => decide (some j ∈ l.left))
  else none

def ListStage.awaited : ListStage → Option String
  | .row l | .metrics l _ | .attempts l _ _ => l.awaited
  | _ => none

def ListStage.isFinished : ListStage → Bool
  | .finished => true
  | _         => false

theorem ListStage.eq_finished {l : ListStage} (h : l.isFinished = true) : l = .finished := by
  cases l <;> first | rfl | cases h

namespace Pages

/-- No write moves the Run that `next_cursor` will be made of before it is read, and no page leaves out a Run for a NULL. -/
def Quiet (api : Api) (s : Pages) : PagesAct → Prop
  | .store op => ∀ j, s.stage.awaited = some j →
    ((op.after api.backend s.clock s.db).runs.get j).map (·.updatedAt) = (s.db.runs.get j).map (·.updatedAt)
  | .advance =>
    match s.stage with
    | .select r => Store.Spares s.db s.unnamed r.status (r.limit + 1) r.cursor
    | _         => True
  | _ => True

/-- A step that leaves the row of a Run alone. -/
def Leaves (api : Api) (r : RunRow) (s : Pages) : PagesAct → Prop
  | .store op => (op.after api.backend s.clock s.db).runs.get r.jobId = s.db.runs.get r.jobId
  | _         => True

instance (api : Api) (s : Pages) : ∀ a, Decidable (Quiet api s a)
  | .store op =>
    match h : s.stage.awaited with
    | none   => isTrue (fun j hj => by rw [h] at hj; cases hj)
    | some j =>
      decidable_of_iff (((op.after api.backend s.clock s.db).runs.get j).map (·.updatedAt) =
          (s.db.runs.get j).map (·.updatedAt))
        ⟨fun hj i hi => by rw [h] at hi; cases hi; exact hj, fun hq => hq j h⟩
  | .tick _  => isTrue trivial
  | .unnamed => isTrue trivial
  | .advance =>
    match h : s.stage with
    | .select r => decidable_of_iff (Store.Spares s.db s.unnamed r.status (r.limit + 1) r.cursor) (by rw [Quiet, h])
    | .row _ | .metrics _ _ | .attempts _ _ _ | .finished | .failed _ => isTrue (by rw [Quiet, h]; trivial)

instance (api : Api) (r : RunRow) (s : Pages) : ∀ a, Decidable (Leaves api r s a)
  | .store op =>
    inferInstanceAs (Decidable ((op.after api.backend s.clock s.db).runs.get r.jobId = s.db.runs.get r.jobId))
  | .tick _   => isTrue trivial
  | .unnamed  => isTrue trivial
  | .advance  => isTrue trivial

/-- A Run that is there at the start, matches the filter, and is not written in the run. -/
structure StandsStill (api : Api) (s : Pages) (acts : List PagesAct) (r : RunRow) : Prop where
  there    : s.db.runs.get r.jobId = some r
  filtered : r.hasStatus s.query.status = true
  left     : Every (step api) (Leaves api r) s acts

/-! ## The invariant of a scan -/

/-- A row of a Run that stood still is the row it had all along. -/
def Own (S : RunRow → Prop) (rows : List RunRow) : Prop := ∀ x ∈ rows, ∀ r, S r → x.jobId = r.jobId → x = r

/-- What the items are of the Runs that stand still. -/
def Returned (S : RunRow → Prop) (items : List PublicRun) (bound : Option (ℚ ×ₗ String)) : Prop :=
  ∃ out : List RunRow, items = out.map publicRun ∧ Progress RunRow.position S bound out ∧ Own S out

/-- The requests of the scan are accepted, whatever cursor they carry. -/
def Accepts (api : Api) (query : ListQuery) (limit : Nat) : Prop :=
  0 < limit ∧ ∀ c key, decodeCursor api.runtime c = .ok key →
    listRequest api { query with cursor := c } = .ok ⟨limit, key, query.status⟩

/-- `rows` are the Runs of a selection that were read again so far. -/
structure Reads (S : RunRow → Prop) (db : Db) (limit : Nat) (selected rows : List RunRow) (left : List String) : Prop where
  reread  : Reread S (selected.take rows.length) rows
  left_eq : left = (selected.drop rows.length).map (·.jobId)
  own     : Own S rows
  doubles : ∀ x ∈ rows, PyFloat.IsDouble x.updatedAt
  there   : ∀ x ∈ selected, (db.runs.get x.jobId).isSome = true
  /-- The Run the page ends with was read where it was selected, or is still there. -/
  endRead : limit < selected.length → ∀ x y, selected[limit - 1]? = some x → rows[limit - 1]? = some y →
    y.position = x.position
  endWaits : limit < selected.length → ∀ x, selected[limit - 1]? = some x → rows.length ≤ limit - 1 →
    (db.runs.get x.jobId).map (·.updatedAt) = some x.updatedAt

structure Reading (api : Api) (S : RunRow → Prop) (db : Db) (query : ListQuery) (items : List PublicRun) (l : Listing)
    (rows : List RunRow) (bound : Option (ℚ ×ₗ String)) (selected : List RunRow) : Prop where
  accepts  : Accepts api query l.request.limit
  status   : l.request.status = query.status
  returned : Returned S items bound
  taken    : ∃ table, selected = select RunRow.position table bound (l.request.limit + 1) ∧ (∀ r, S r → r ∈ table) ∧
    (table.map RunRow.position).Nodup
  own      : Own S selected
  ids_eq   : l.ids.filterMap id = selected.map (·.jobId)
  reads    : Reads S db l.request.limit selected rows (l.left.filterMap id)

def StageInv (api : Api) (S : RunRow → Prop) (db : Db) (query : ListQuery) (items : List PublicRun) : ListStage → Prop
  | .select r => Accepts api query r.limit ∧ r.status = query.status ∧
    ∃ bound, r.cursor = bound.map cursorOf ∧ Returned S items bound
  | .row l            => ∃ bound selected, Reading api S db query items l (l.views.map (·.run)) bound selected
  | .metrics l run    => ∃ bound selected, Reading api S db query items l (l.views.map (·.run) ++ [run]) bound selected
  | .attempts l run _ => ∃ bound selected, Reading api S db query items l (l.views.map (·.run) ++ [run]) bound selected
  | .finished         => ∃ out : List RunRow, items = out.map publicRun ∧ (∀ r, S r → r ∈ out) ∧
    out.Pairwise (fun a b => S a → S b → b.position < a.position) ∧ Own S out
  | .failed _         => False

structure Inv (api : Api) (S : RunRow → Prop) (s : Pages) : Prop where
  clock    : PyFloat.IsDouble s.clock
  doubles  : s.db.StoresDoubles
  still    : ∀ r, S r → s.db.runs.get r.jobId = some r
  filtered : ∀ r, S r → r.hasStatus s.query.status = true
  stage    : StageInv api S s.db s.query s.items s.stage

variable {api : Api} {S : RunRow → Prop} {s s' : Pages} {db : Db} {query : ListQuery} {items : List PublicRun}

/-! ### Writes -/

theorem Reads.length_le {limit : Nat} {selected rows : List RunRow} {left : List String}
    (h : Reads S db limit selected rows left) : rows.length ≤ selected.length := by
  have hlen := List.Forall₂.length_eq h.reread
  rw [List.length_take] at hlen
  omega

/-- The Run a page ends with is awaited until it is read. -/
theorem awaited_of_unread {l : Listing} {rows selected : List RunRow} {bound : Option (ℚ ×ₗ String)}
    (h : Reading api S db query items l rows bound selected) (hfull : l.request.limit < selected.length) {x : RunRow}
    (hx : selected[l.request.limit - 1]? = some x) (hlen : rows.length ≤ l.request.limit - 1) :
    l.awaited = some x.jobId := by
  have hlength : l.request.limit < (l.ids.filterMap id).length := by rwa [h.ids_eq, List.length_map]
  have hid : (l.ids.filterMap id)[l.request.limit - 1]? = some x.jobId := by
    rw [h.ids_eq, List.getElem?_map, hx, Option.map_some]
  have hmem : some x.jobId ∈ l.left := by
    suffices hleft : x.jobId ∈ l.left.filterMap id by
      obtain ⟨i, hi, rfl⟩ := List.mem_filterMap.1 hleft
      exact hi
    rw [h.reads.left_eq]
    apply List.mem_map_of_mem
    apply List.mem_of_getElem? (i := l.request.limit - 1 - rows.length)
    rw [List.getElem?_drop, Nat.add_sub_cancel' hlen, hx]
  rw [Listing.awaited, if_pos hlength, hid, Option.filter_some, if_pos (decide_eq_true hmem)]

theorem Reading.store {l : Listing} {rows selected : List RunRow} {bound : Option (ℚ ×ₗ String)} {b : Backend} {now : Time}
    {op : StoreOp} (h : Reading api S db query items l rows bound selected)
    (hquiet : ∀ j, l.awaited = some j → ((op.after b now db).runs.get j).map (·.updatedAt) =
      (db.runs.get j).map (·.updatedAt)) :
    Reading api S (op.after b now db) query items l rows bound selected := by
  refine ⟨h.accepts, h.status, h.returned, h.taken, h.own, h.ids_eq, ?_⟩
  refine { h.reads with there := fun x hx => run_stays op (h.reads.there x hx), endWaits := ?_ }
  intro hfull x hx hlen
  rw [hquiet x.jobId (awaited_of_unread h hfull hx hlen)]
  exact h.reads.endWaits hfull x hx hlen

theorem Inv.store {op : StoreOp} (h : Inv api S s) (hquiet : Quiet api s (.store op))
    (hleaves : ∀ r, S r → Leaves api r s (.store op)) :
    Inv api S { s with db := op.after api.backend s.clock s.db } := by
  refine ⟨h.clock, storesDoubles_after op h.doubles h.clock, fun r hr => (hleaves r hr).trans (h.still r hr), h.filtered, ?_⟩
  have hstage := h.stage
  unfold Quiet at hquiet
  cases hs : s.stage with
  | select r => rwa [hs] at hstage
  | row l =>
    rw [hs] at hstage hquiet
    obtain ⟨bound, selected, hr⟩ := hstage
    exact ⟨bound, selected, hr.store hquiet⟩
  | metrics l run =>
    rw [hs] at hstage hquiet
    obtain ⟨bound, selected, hr⟩ := hstage
    exact ⟨bound, selected, hr.store hquiet⟩
  | attempts l run m =>
    rw [hs] at hstage hquiet
    obtain ⟨bound, selected, hr⟩ := hstage
    exact ⟨bound, selected, hr.store hquiet⟩
  | finished => rwa [hs] at hstage
  | failed f => rwa [hs] at hstage

/-! ### The SELECTs -/

theorem start_inv {clock : Time} {unnamed : List Time} {query : ListQuery} (hclock : PyFloat.IsDouble clock)
    (hdoubles : db.StoresDoubles)
    (hstill : ∀ r, S r → db.runs.get r.jobId = some r) (hfiltered : ∀ r, S r → r.hasStatus query.status = true)
    (hcursor : query.cursor = none) {r : ListRequest} (hr : listRequest api query = .ok r) :
    Inv api S (start api clock db unnamed query) := by
  have hread := hr
  unfold listRequest at hr
  have hstage : (start api clock db unnamed query).stage = .select r := by rw [start, hread]; rfl
  refine ⟨hclock, hdoubles, hstill, hfiltered, ?_⟩
  rw [hstage]
  cases hlimit : api.interpreter.int (query.limit.getD "25") with
  | error e =>
    rw [hlimit] at hr
    cases hr
  | ok n =>
    rw [hlimit] at hr
    simp only at hr
    by_cases hrange : 1 ≤ n ∧ n ≤ 100
    · rw [if_pos hrange, hcursor] at hr
      obtain rfl := Except.ok.inj hr
      have hpos : 0 < n.toNat := by omega
      refine ⟨⟨hpos, fun c key hc => ?_⟩, rfl, none, rfl, [], rfl, Progress.start, ?_⟩
      · simp only [start, listRequest, hlimit, if_pos hrange, hc]
      · intro x hx
        cases hx
    · rw [if_neg hrange] at hr
      cases hr

/-- The ids are selected. -/
theorem select_inv {r : ListRequest} {unnamed : List Time} (hstill : ∀ r, S r → db.runs.get r.jobId = some r)
    (hfiltered : ∀ r, S r → r.hasStatus query.status = true)
    (hspares : Store.Spares db unnamed r.status (r.limit + 1) r.cursor) (h : StageInv api S db query items (.select r)) :
    StageInv api S db query items (.row ⟨r, Store.listRunIds db unnamed r.status (r.limit + 1) r.cursor, [],
      Store.listRunIds db unnamed r.status (r.limit + 1) r.cursor⟩) := by
  obtain ⟨haccepts, hstatus, bound, hcursor, hreturned⟩ := h
  rw [hcursor] at hspares
  have hids := listRunIds_named hspares
  rw [← hcursor] at hids
  have hthere : ∀ x ∈ select RunRow.position (db.runs.rows.filter (fun x => x.hasStatus r.status)) bound (r.limit + 1),
      db.runs.get x.jobId = some x := by
    intro x hx
    exact db.runs.get_of_mem (List.mem_filter.1 (mem_select hx).1).1
  refine ⟨bound, _, haccepts, hstatus, hreturned,
    ⟨db.runs.rows.filter (fun x => x.hasStatus r.status), rfl, fun x hx => ?_, positions_nodup _ _⟩,
    fun x hx r' hr' heq => ?_, hids, ?_⟩
  · rw [List.mem_filter, hstatus]
    exact ⟨Table.mem_of_get (hstill x hx), hfiltered x hx⟩
  · have hget := hstill r' hr'
    rw [← heq, hthere x hx] at hget
    exact Option.some.inj hget
  · refine ⟨List.Forall₂.nil, hids, ?_, ?_, fun x hx => ?_, ?_, ?_⟩
    · intro x hx
      cases hx
    · intro x hx
      cases hx
    · rw [hthere x hx]
      rfl
    · intro _ x y _ hy
      cases hy
    · intro _ x hx _
      rw [hthere x (List.mem_of_getElem? hx)]
      rfl

/-- The row of the next Run is read. -/
theorem row_inv {l : Listing} {j : String} {left : List (Option String)} {run : RunRow}
    (hdoubles : db.StoresDoubles) (hstill : ∀ r, S r → db.runs.get r.jobId = some r)
    (h : StageInv api S db query items (.row l)) (hleft : l.left = some j :: left) (hrun : db.runs.get j = some run) :
    StageInv api S db query items (.metrics { l with left } run) := by
  obtain ⟨bound, selected, haccepts, hstatus, hreturned, htaken, hselected, hids, hr⟩ := h
  have hle := hr.length_le
  obtain ⟨hreread, hleft', hown, hd, hthere, hend, hwaits⟩ := hr
  have hnames : l.left.filterMap id = j :: left.filterMap id := by rw [hleft]; rfl
  rw [hnames] at hleft'
  have hleft := hleft'.symm
  generalize hrows : l.views.map (·.run) = rows at hreread hleft hown hd hend hwaits hle
  obtain ⟨y, rest, hdrop, rfl, hrest⟩ := List.map_eq_cons_iff.1 hleft
  have hy : selected[rows.length]? = some y := by
    have hhead := congrArg List.head? hdrop
    rwa [List.head?_drop] at hhead
  have hymem : y ∈ selected := List.mem_of_getElem? hy
  have htake : selected.take (rows ++ [run]).length = selected.take rows.length ++ [y] := by
    rw [List.length_append, List.length_singleton, List.take_add_one, hy]
    rfl
  have hkey : run.jobId = y.jobId := Table.key_of_get hrun
  have hsame : ∀ r, S r → run.jobId = r.jobId → run = r := by
    intro r hr heq
    have hget := hstill r hr
    rw [← heq, hkey, hrun] at hget
    exact Option.some.inj hget
  have hlength : (rows ++ [run]).length = rows.length + 1 := by rw [List.length_append, List.length_singleton]
  refine ⟨bound, selected, haccepts, hstatus, hreturned, htaken, hselected, hids, ?_⟩
  rw [hrows]
  refine ⟨?_, ?_, ?_, ?_, hthere, ?_, ?_⟩
  · rw [htake]
    refine List.rel_append hreread (List.Forall₂.cons (fun hor => ?_) List.Forall₂.nil)
    rcases hor with hs | hs
    · exact (hsame y hs hkey).symm
    · exact hselected y hymem run hs hkey.symm
  · rw [hlength, ← List.drop_drop, hdrop, List.drop_one, List.tail_cons, hrest]
  · intro x hx r hr heq
    rcases List.mem_append.1 hx with hx | hx
    · exact hown x hx r hr heq
    · rw [List.mem_singleton] at hx
      subst hx
      exact hsame r hr heq
  · intro x hx
    rcases List.mem_append.1 hx with hx | hx
    · exact hd x hx
    · rw [List.mem_singleton] at hx
      subst hx
      exact hdoubles _ _ hrun
  · intro (hfull : l.request.limit < selected.length) x z (hx : selected[l.request.limit - 1]? = some x)
      (hz : (rows ++ [run])[l.request.limit - 1]? = some z)
    by_cases hat : l.request.limit - 1 < rows.length
    · rw [List.getElem?_append_left hat] at hz
      exact hend hfull x z hx hz
    · -- the Run the page ends with is the one that was read
      have hindex : l.request.limit - 1 = rows.length := by
        have hlt := (List.getElem?_eq_some_iff.1 hz).1
        omega
      have hpos := hwaits hfull x hx (by omega)
      rw [hindex, hy] at hx
      obtain rfl := Option.some.inj hx
      rw [hindex, List.getElem?_append_right (le_refl _), Nat.sub_self] at hz
      obtain rfl : run = z := by simpa using hz
      rw [hrun] at hpos
      have hstamp : run.updatedAt = y.updatedAt := Option.some.inj hpos
      rw [RunRow.position, RunRow.position, hstamp, hkey]
  · intro (hfull : l.request.limit < selected.length) x (hx : selected[l.request.limit - 1]? = some x)
      (hlen : (rows ++ [run]).length ≤ l.request.limit - 1)
    exact hwaits hfull x hx (by omega)

/-- A NULL is read as no Run. -/
theorem null_inv {l : Listing} {left : List (Option String)} (h : StageInv api S db query items (.row l))
    (hleft : l.left = none :: left) : StageInv api S db query items (.row { l with left }) := by
  obtain ⟨bound, selected, hr⟩ := h
  have hsame : l.left.filterMap id = left.filterMap id := by rw [hleft]; rfl
  exact ⟨bound, selected, hr.accepts, hr.status, hr.returned, hr.taken, hr.own, hr.ids_eq, hsame ▸ hr.reads⟩

/-- Every selected Run is still there. -/
theorem row_there {l : Listing} {j : String} {left : List (Option String)} (h : StageInv api S db query items (.row l))
    (hleft : l.left = some j :: left) : ∃ run, db.runs.get j = some run := by
  obtain ⟨bound, selected, _, _, _, _, _, _, hr⟩ := h
  have hj : j ∈ (selected.drop (l.views.map (·.run)).length).map (·.jobId) := by
    rw [← hr.left_eq, hleft]
    exact List.mem_cons_self
  obtain ⟨x, hx, rfl⟩ := List.mem_map.1 hj
  exact Option.isSome_iff_exists.1 (hr.there x (List.mem_of_mem_drop hx))

theorem answer_frame (api : Api) (s : Pages) (l : Listing) : (s.answer api l).clock = s.clock ∧ (s.answer api l).db = s.db ∧
    (s.answer api l).query.status = s.query.status := by
  unfold answer
  simp only
  cases (listResponse l.request.limit l.views).nextCursor with
  | none => exact ⟨rfl, rfl, rfl⟩
  | some c => exact ⟨rfl, rfl, rfl⟩

/-- The answer of a complete page: its items, and the next request or the end. -/
theorem answer_inv {l : Listing} (h : StageInv api S s.db s.query s.items (.row l)) (hleft : l.left = []) :
    StageInv api S (s.answer api l).db (s.answer api l).query (s.answer api l).items (s.answer api l).stage := by
  obtain ⟨bound, selected, haccepts, hstatus, ⟨out, hout, hprogress, hownout⟩, ⟨table, htaken, htable, hinj⟩, -, -, hr⟩ := h
  have hle := hr.length_le
  obtain ⟨hreread, hleft', hown, hd, -, hend, -⟩ := hr
  have hlength : l.views.length = (l.views.map (·.run)).length := by rw [List.length_map]
  have hmap : ∀ (vs : List RunView), vs.map (fun v => publicRun v.run) = (vs.map (·.run)).map publicRun := by
    intro vs
    rw [List.map_map]
    rfl
  have hdrop : selected.drop (l.views.map (·.run)).length = [] := by
    rw [hleft] at hleft'
    exact List.map_eq_nil_iff.1 hleft'.symm
  have hall : selected.take (l.views.map (·.run)).length = selected := by
    rw [List.take_of_length_le (List.drop_eq_nil_iff.1 hdrop)]
  rw [hall] at hreread
  have hsame : (l.views.map (·.run)).length = selected.length := (List.Forall₂.length_eq hreread).symm
  have hmax : selected.length ≤ l.request.limit + 1 := by
    rw [htaken]
    exact select_length_le
  have hownall : ∀ n, Own S (out ++ (l.views.map (·.run)).take n) := by
    intro n x hx r hr heq
    rcases List.mem_append.1 hx with hx | hx
    · exact hownout x hx r hr heq
    · exact hown x (List.mem_of_mem_take hx) r hr heq
  unfold answer listResponse
  by_cases hlast : l.views.length ≤ l.request.limit
  · -- no row is left for another page
    rw [htaken] at hreread hsame
    obtain ⟨hevery, hordered⟩ := hprogress.finish htable hinj hreread (by omega)
    have htake : l.views.take l.request.limit = l.views := List.take_of_length_le hlast
    simp only [List.drop_eq_nil_of_le hlast, if_true, htake]
    refine ⟨out ++ l.views.map (·.run), ?_, hevery, hordered, ?_⟩
    · rw [hout, hmap, List.map_append]
    · have hown' := hownall (l.views.map (·.run)).length
      rwa [List.take_length] at hown'
  · have hfull : selected.length = l.request.limit + 1 := by omega
    obtain ⟨hpos, haccepts'⟩ := haccepts
    obtain ⟨x, hx⟩ : ∃ x, selected[l.request.limit - 1]? = some x :=
      ⟨_, List.getElem?_eq_getElem (by omega)⟩
    obtain ⟨v, hv⟩ : ∃ v, l.views[l.request.limit - 1]? = some v :=
      ⟨_, List.getElem?_eq_getElem (by omega)⟩
    have hvrun : (l.views.map (·.run))[l.request.limit - 1]? = some v.run := by
      rw [List.getElem?_map, hv, Option.map_some]
    have hposition := hend (by omega) x v.run hx hvrun
    have hpageEnd : (l.views.take l.request.limit).getLast? = some v := by
      rw [List.getLast?_take, if_neg (by omega), hv]
      rfl
    have hrest : l.views.drop l.request.limit ≠ [] := by
      rw [ne_eq, List.drop_eq_nil_iff]
      omega
    have hdecode := decode_encode_position api.runtime (hd v.run (List.mem_of_getElem? hvrun))
    have hnext := haccepts' (some (encodeCursor v.run)) _ hdecode
    have hprogress' : Progress RunRow.position S (some v.run.position)
        (out ++ (l.views.map (·.run)).take l.request.limit) := by
      rw [hposition]
      rw [htaken] at hreread hfull hx
      exact hprogress.turn htable hinj hreread hfull hx hpos
    simp only [if_neg hrest, hpageEnd, Option.map_some, hnext, stageOf]
    refine ⟨⟨hpos, haccepts'⟩, rfl, some v.run.position, rfl,
      out ++ (l.views.map (·.run)).take l.request.limit, ?_, hprogress', hownall _⟩
    rw [hout, hmap, List.map_append, List.map_take]

/-- **What one step preserves.** -/
theorem step_inv {a : PagesAct} (h : Inv api S s) (hquiet : Quiet api s a) (hleaves : ∀ r, S r → Leaves api r s a)
    (hstep : step api s a = some s') : Inv api S s' := by
  cases a with
  | store op =>
    cases hstep
    exact h.store hquiet hleaves
  | unnamed =>
    simp only [step] at hstep
    split at hstep
    · cases hstep
      exact ⟨h.clock, h.doubles, h.still, h.filtered, h.stage⟩
    · cases hstep
  | tick now =>
    simp only [step] at hstep
    by_cases hok : s.clock ≤ now ∧ PyFloat.IsDouble now
    · rw [if_pos hok] at hstep
      cases hstep
      exact ⟨hok.2, h.doubles, h.still, h.filtered, h.stage⟩
    · rw [if_neg hok] at hstep
      cases hstep
  | advance =>
    obtain ⟨hclock, hdoubles, hstill, hfiltered, hstage⟩ := h
    simp only [step, advance] at hstep
    cases hs : s.stage with
    | select r =>
      rw [hs] at hstep hstage
      cases hstep
      have hspares : Store.Spares s.db s.unnamed r.status (r.limit + 1) r.cursor := by
        unfold Quiet at hquiet
        rwa [hs] at hquiet
      exact ⟨hclock, hdoubles, hstill, hfiltered, select_inv hstill hfiltered hspares hstage⟩
    | row l =>
      rw [hs] at hstep hstage
      simp only at hstep
      cases hleft : l.left with
      | nil =>
        rw [hleft] at hstep
        cases hstep
        obtain ⟨hc, hd, hst⟩ := answer_frame api s l
        refine ⟨hc ▸ hclock, hd ▸ hdoubles, ?_, ?_, answer_inv hstage hleft⟩
        · rwa [hd]
        · rwa [hst]
      | cons i left =>
        cases i with
        | none =>
          rw [hleft] at hstep
          cases hstep
          exact ⟨hclock, hdoubles, hstill, hfiltered, null_inv hstage hleft⟩
        | some j =>
          obtain ⟨run, hrun⟩ := row_there hstage hleft
          rw [hleft] at hstep
          simp only [hrun] at hstep
          cases hstep
          exact ⟨hclock, hdoubles, hstill, hfiltered, row_inv hdoubles hstill hstage hleft hrun⟩
    | metrics l run =>
      rw [hs] at hstep hstage
      cases hstep
      exact ⟨hclock, hdoubles, hstill, hfiltered, hstage⟩
    | attempts l run m =>
      rw [hs] at hstep hstage
      cases hstep
      refine ⟨hclock, hdoubles, hstill, hfiltered, ?_⟩
      obtain ⟨bound, selected, hr⟩ := hstage
      have hviews : (l.views ++ [RunView.mk run m (Store.attemptsOf s.db run.jobId)]).map RunView.run =
          l.views.map RunView.run ++ [run] := List.map_append
      refine ⟨bound, selected, ?_⟩
      rw [hviews]
      exact ⟨hr.accepts, hr.status, hr.returned, hr.taken, hr.own, hr.ids_eq, hr.reads⟩
    | finished =>
      rw [hs] at hstep
      cases hstep
    | failed f => exact (hs ▸ hstage).elim

/-! ## Complete scans -/

/-- Every Run of `S` is returned exactly once, and those Runs come in descending order; a Run with a NULL id is in no item,
so there is none that should be. -/
structure Complete (S : RunRow → Prop) (nameless : List Time) (items : List PublicRun) : Prop where
  once       : ∀ r, S r → items.countP (fun i => decide (i.runId = r.jobId)) = 1
  descending : items.Pairwise (fun i i' => ∀ r r', S r → S r' → i.runId = r.jobId → i'.runId = r'.jobId →
    r'.position < r.position)
  none_nameless : nameless = []

theorem complete_of_finished {out : List RunRow} (hevery : ∀ r, S r → r ∈ out)
    (hordered : out.Pairwise (fun a b => S a → S b → b.position < a.position)) (hown : Own S out) :
    Complete S [] (out.map publicRun) := by
  refine ⟨fun r hr => ?_, ?_, rfl⟩
  · have hpos : 0 < out.countP (fun x => decide (x.jobId = r.jobId)) := by
      rw [List.countP_pos_iff]
      exact ⟨r, hevery r hr, decide_eq_true rfl⟩
    have hone : out.countP (fun x => decide (x.jobId = r.jobId)) ≤ 1 := by
      rw [List.countP_eq_length_filter]
      by_contra hmany
      have hsub := hordered.sublist (List.filter_sublist (p := fun x => decide (x.jobId = r.jobId)))
      have hsame : ∀ x ∈ out.filter (fun x => decide (x.jobId = r.jobId)), x = r := by
        intro x hx
        obtain ⟨hmem, hid⟩ := List.mem_filter.1 hx
        exact hown x hmem r hr (of_decide_eq_true hid)
      obtain ⟨x, y, rest, heq⟩ : ∃ x y rest, out.filter (fun x => decide (x.jobId = r.jobId)) = x :: y :: rest := by
        match hl : out.filter (fun x => decide (x.jobId = r.jobId)) with
        | []             => rw [hl] at hmany; simp at hmany
        | [x]            => rw [hl] at hmany; simp at hmany
        | x :: y :: rest => exact ⟨x, y, rest, hl⟩
      rw [heq] at hsub hsame
      have hx := hsame x List.mem_cons_self
      have hy := hsame y (List.mem_cons_of_mem _ List.mem_cons_self)
      subst hx hy
      exact lt_irrefl _ ((List.pairwise_cons.1 hsub).1 _ List.mem_cons_self hr hr)
    rw [List.countP_map]
    have hids : (fun i => decide (i.runId = r.jobId)) ∘ publicRun = fun x => decide (x.jobId = r.jobId) := rfl
    rw [hids]
    omega
  · rw [List.pairwise_map]
    refine hordered.imp_of_mem (fun {a b} ha hb hab r r' hr hr' hi hi' => ?_)
    obtain rfl := hown a ha r hr hi
    obtain rfl := hown b hb r' hr' hi'
    exact hab hr hr'

/-- **A scan is complete where no write moves the Run a page ends with before its read and no NULL stands in for a Run**,
and a cursor that was written is read back as it was. -/
theorem scan_of_quiet (api : Api) :
    (∀ run : RunRow, PyFloat.IsDouble run.updatedAt →
      decodeCursor api.runtime (some (encodeCursor run)) = .ok (some (.finite run.updatedAt, run.jobId))) ∧
    ∀ (clock : Time) (db : Db) (unnamed : List Time) (query : ListQuery) (request : ListRequest) (acts : List PagesAct)
      (s : Pages), PyFloat.IsDouble clock → db.StoresDoubles → unnamed.filter (unnamedListed query.status none) = [] →
      query.cursor = none → listRequest api query = .ok request →
      run (step api) (start api clock db unnamed query) acts = some s →
      Every (step api) (Quiet api) (start api clock db unnamed query) acts →
      (∀ f, s.stage ≠ .failed f) ∧
      (s.stage = .finished → Complete (StandsStill api (start api clock db unnamed query) acts)
        (unnamed.filter (unnamedListed query.status none)) s.items) := by
  refine ⟨fun run hd => decode_encode_cursor api.runtime hd, ?_⟩
  intro clock db unnamed query request acts s hclock hdoubles hnameless hcursor hrequest hrun hquiet
  have hinv : Inv api (StandsStill api (start api clock db unnamed query) acts) (start api clock db unnamed query) :=
    start_inv hclock hdoubles (fun r hr => hr.there) (fun r hr => hr.filtered) hcursor hrequest
  have hevery : Every (step api) (fun m a => Quiet api m a ∧
      ∀ r, StandsStill api (start api clock db unnamed query) acts r → Leaves api r m a) (start api clock db unnamed query)
      acts := by
    rw [every_iff_forall_split]
    intro pre a post m hsplit hm
    refine ⟨every_iff_forall_split.1 hquiet pre a post m hsplit hm, fun r hr => ?_⟩
    exact every_iff_forall_split.1 hr.left pre a post m hsplit hm
  have hend := run_preserves_of_every (fun m a m' hm hc hstep => step_inv hm hc.1 hc.2 hstep) hinv hevery hrun
  refine ⟨fun f hf => ?_, fun hf => ?_⟩
  · have hstage := hend.stage
    rw [hf] at hstage
    exact hstage
  · have hstage := hend.stage
    rw [hf] at hstage
    obtain ⟨out, hitems, hall, hordered, hown⟩ := hstage
    rw [hitems, hnameless]
    exact complete_of_finished hall hordered hown

/-! ### A page end that moves -/

def scanApi : Api := ⟨.sqlite, ⟨fun _ => "", id, id⟩, ⟨fun _ _ => none, fun _ => ""⟩⟩

def threeRuns : Db :=
  { Db.empty with
    runs := ⟨[("run-a", 1), ("run-b", 2), ("run-c", 3)].map (fun p => Store.newRun p.2 p.1 "d" "f" "w" none none),
      by decide⟩ }

def pagesOfTwo : ListQuery := { limit := some "2" }

/-- A write of `run-b`, as a worker that starts it makes. -/
def startRun : PagesAct := .store (.updateRun "run-b" { status := some .running })

/-- The write lands when the three Runs are read, and when only the first is. -/
def quietActs : List PagesAct :=
  List.replicate 10 .advance ++ .tick 4 :: startRun :: List.replicate 6 .advance

def movedActs : List PagesAct :=
  List.replicate 4 .advance ++ .tick 4 :: startRun :: List.replicate 15 .advance

theorem threeRuns_storesDoubles : threeRuns.StoresDoubles := by
  have hall : ∀ r ∈ threeRuns.runs.rows, PyFloat.IsDouble r.updatedAt := by decide +kernel
  intro j r hr
  exact hall r (Table.mem_of_get hr)

/-- A scan with a write between its pages. -/
theorem quietActs_complete : ∃ s, run (step scanApi) (start scanApi 3 threeRuns [] pagesOfTwo) quietActs = some s ∧
    Complete (StandsStill scanApi (start scanApi 3 threeRuns [] pagesOfTwo) quietActs) [] s.items := by
  have hfinished : (run (step scanApi) (start scanApi 3 threeRuns [] pagesOfTwo) quietActs).any
      (fun s => s.stage.isFinished) = true := by decide +kernel
  have hquiet : Every (step scanApi) (Quiet scanApi) (start scanApi 3 threeRuns [] pagesOfTwo) quietActs := by
    decide +kernel
  obtain ⟨s, hs, hend⟩ := (Option.any_eq_true _ _).1 hfinished
  refine ⟨s, hs, ((scan_of_quiet scanApi).2 3 threeRuns [] pagesOfTwo ⟨2, none, none⟩ quietActs s (by decide +kernel)
    threeRuns_storesDoubles rfl rfl rfl hs hquiet).2 (ListStage.eq_finished hend)⟩

/-- **A page end that moves before it is read repeats a Run that stood still**: `run-c` is on both pages. -/
theorem moved_page_end_repeats : ¬ ∀ (api : Api) (clock : Time) (db : Db) (unnamed : List Time) (query : ListQuery)
    (request : ListRequest) (acts : List PagesAct) (s : Pages), PyFloat.IsDouble clock → db.StoresDoubles →
    query.cursor = none → listRequest api query = .ok request →
    run (step api) (start api clock db unnamed query) acts = some s → s.stage = .finished →
    Complete (StandsStill api (start api clock db unnamed query) acts) (unnamed.filter (unnamedListed query.status none))
      s.items := by
  intro h
  have hrun : (run (step scanApi) (start scanApi 3 threeRuns [] pagesOfTwo) movedActs).any
      (fun s => s.stage.isFinished && decide (s.items.countP (fun i => decide (i.runId = "run-c")) = 2)) = true := by
    decide +kernel
  obtain ⟨s, hs, hend⟩ := (Option.any_eq_true _ _).1 hrun
  rw [Bool.and_eq_true, decide_eq_true_eq] at hend
  have hc : StandsStill scanApi (start scanApi 3 threeRuns [] pagesOfTwo) movedActs
      (Store.newRun 3 "run-c" "d" "f" "w" none none) := ⟨rfl, rfl, by decide +kernel⟩
  have honce := (h scanApi 3 threeRuns [] pagesOfTwo ⟨2, none, none⟩ movedActs s (by decide +kernel)
    threeRuns_storesDoubles rfl rfl hs (ListStage.eq_finished hend.1)).once _ hc
  have htwice := hend.2
  rw [show (Store.newRun 3 "run-c" "d" "f" "w" none none).jobId = "run-c" from rfl] at honce
  omega

/-- **A NULL among the ids of a full page ends the scan**: nobody writes, and `run-a` is never returned. -/
theorem null_id_hides_older : ∃ s,
    run (step scanApi) (start scanApi 3 threeRuns [3] pagesOfTwo) (List.replicate 9 .advance) = some s ∧
    s.stage = .finished ∧
    StandsStill scanApi (start scanApi 3 threeRuns [3] pagesOfTwo) (List.replicate 9 .advance)
      (Store.newRun 1 "run-a" "d" "f" "w" none none) ∧
    s.items.countP (fun i => decide (i.runId = "run-a")) = 0 := by
  have hrun : (run (step scanApi) (start scanApi 3 threeRuns [3] pagesOfTwo) (List.replicate 9 .advance)).any
      (fun s => s.stage.isFinished && decide (s.items.countP (fun i => decide (i.runId = "run-a")) = 0)) = true := by
    decide +kernel
  obtain ⟨s, hs, hend⟩ := (Option.any_eq_true _ _).1 hrun
  rw [Bool.and_eq_true, decide_eq_true_eq] at hend
  exact ⟨s, hs, ListStage.eq_finished hend.1, ⟨rfl, rfl, by decide +kernel⟩, hend.2⟩

end Pages

end EdaLab
