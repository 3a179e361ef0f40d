import BattleTris.Lib.Sql
import BattleTris.Server.Archive

/-!
The boot prune: what its `WHERE` clause selects, against `botFillerReplay`.
-/

namespace BattleTris

/-- `(name = 'The Count' OR name LIKE '%-Bert' OR name LIKE '%-Ernie')`. -/
def nameTest (name : Option String) : Sql.Test :=
  Sql.either (Sql.either (Sql.equals name "The Count") (Sql.like name "%-Bert"))
    (Sql.like name "%-Ernie")

namespace ReplayRow

/-- The `WHERE` clause of the prune. -/
def whereClause (r : ReplayRow) : Sql.Test :=
  Sql.both (Sql.both (some r.title.isNone) (nameTest r.nameA)) (nameTest r.nameB)

def candidate (r : ReplayRow) : Bool := Sql.selects r.whereClause

end ReplayRow

theorem selects_like_suffix (name : String) (suffix : List Char)
    (plain : suffix.map Sql.Wild.ofChar = suffix.map .lit) (s : String)
    (text : s.toList = '%' :: suffix) :
    Sql.selects (Sql.like (some name) s) = sqlLikeSuffix name (String.ofList suffix) := by
  have shape : Sql.pattern s = .many :: suffix.map .lit := by
    rw [Sql.pattern, text, List.map_cons, plain]
    rfl
  rw [Sql.like, Option.map_some, Sql.selects_some, shape, Bool.eq_iff_iff, Sql.fits_suffix,
    sqlLikeSuffix, List.isSuffixOf_iff_suffix, lowered, lowered, String.toList_ofList]

theorem selects_nameTest (name : Option String) :
    Sql.selects (nameTest name) = sqlBotName name := by
  cases name with
  | none => rfl
  | some name =>
    have bert := selects_like_suffix name "-Bert".toList (by decide) "%-Bert" (by decide)
    have ernie := selects_like_suffix name "-Ernie".toList (by decide) "%-Ernie" (by decide)
    rw [String.ofList_toList] at bert ernie
    rw [nameTest, Sql.selects_either, Sql.selects_either, Sql.selects_equals, bert, ernie,
      sqlBotName]

theorem ReplayRow.candidate_eq (r : ReplayRow) :
    r.candidate = (r.title.isNone && sqlBotName r.nameA && sqlBotName r.nameB) := by
  rw [candidate, whereClause, Sql.selects_both, Sql.selects_both, Sql.selects_some,
    selects_nameTest, selects_nameTest]

namespace ReplayTable

variable {t t' : ReplayTable} {fails : String → Bool}

def candidates (t : ReplayTable) : List String :=
  (t.rows.filter ReplayRow.candidate).map ReplayRow.id

def toDelete (t : ReplayTable) : List String := t.candidates.filter fun id => !replayRetained id

/-- `DELETE FROM replays WHERE id = ?`. -/
def delete (t : ReplayTable) (id : String) : ReplayTable :=
  { t with
    rows := t.rows.filter fun r => r.id ≠ id
    primary := (List.filter_sublist.map ReplayRow.id).nodup t.primary }

/-- How many rows went, in one transaction; a `DELETE` that fails rolls it back. -/
def dbPruneBotReplays (fails : String → Bool) (t : ReplayTable) : Option Nat × ReplayTable :=
  if t.toDelete.any fails then (none, t)
  else (some t.toDelete.length, t.toDelete.foldl delete t)

theorem deletes_rows (ids : List String) :
    (ids.foldl delete t).rows = t.rows.filter fun r => !ids.contains r.id := by
  induction ids generalizing t with
  | nil => simp
  | cons id ids ih =>
    rw [List.foldl_cons, ih, delete, List.filter_filter]
    exact List.filter_congr fun r _ => by simp [Bool.and_comm]

/-- The rows that are one row by their id. -/
theorem eq_of_id {r r' : ReplayRow} (row : r ∈ t.rows) (row' : r' ∈ t.rows) (same : r.id = r'.id) :
    r = r' :=
  List.inj_on_of_nodup_map t.primary row row' same

theorem mem_toDelete {r : ReplayRow} (row : r ∈ t.rows) :
    r.id ∈ t.toDelete ↔ r.candidate = true ∧ replayRetained r.id = false := by
  rw [toDelete, List.mem_filter, candidates, List.mem_map, Bool.not_eq_true']
  constructor
  · rintro ⟨⟨r', member, same⟩, dropped⟩
    obtain ⟨row', chosen⟩ := List.mem_filter.mp member
    rw [eq_of_id row' row same] at chosen
    exact ⟨chosen, dropped⟩
  · rintro ⟨chosen, dropped⟩
    exact ⟨⟨r, List.mem_filter.mpr ⟨row, chosen⟩, rfl⟩, dropped⟩

/-- The boot prune of the archive is this one, where no `DELETE` fails. -/
theorem dbPruneBotReplays_rows (sound : t.toDelete.any fails = false) :
    (dbPruneBotReplays fails t).2.rows = t.prune.rows := by
  rw [dbPruneBotReplays, sound, prune]
  dsimp only [Bool.false_eq_true, if_false]
  rw [if_neg Bool.false_ne_true, deletes_rows]
  refine List.filter_congr fun r row => congrArg not ?_
  rw [Bool.eq_iff_iff, List.contains_iff_mem, mem_toDelete row, pruned, ReplayRow.candidate_eq]
  simp [and_assoc]

end ReplayTable

end BattleTris
