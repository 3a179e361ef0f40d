import BattleTris.Lib.Run

/-!
Where replay bodies live: the `replays` table, the bucket, and everything that writes them.

A body moves between the two in steps of their own, put first and row last; a process that is
killed between any two of them comes up again with the table and the bucket as they were.
-/

namespace BattleTris

/-! ## The names and keys of the retention policy -/

def hasSuffix (name suffix : String) : Bool := suffix.toList.isSuffixOf name.toList

def isBotName (name : String) : Bool :=
  name == "The Count" || hasSuffix name "-Bert" || hasSuffix name "-Ernie"

/-- FNV-1a of the key; one key in twenty is kept. -/
def replayRetained (key : String) : Bool :=
  let h := key.toUTF8.data.toList.foldl
    (fun (h : UInt64) (b : UInt8) => (h ^^^ b.toUInt64) * 0x100000001b3) 0xcbf29ce484222325
  h % 20 == 0

def botFillerReplay (nameA nameB : String) (title : Option String) : Bool :=
  title.isNone && isBotName nameA && isBotName nameB

/-- ASCII letters in lower case, as `LIKE` compares them. -/
def lowered (name : String) : List Char := name.toList.map Char.toLower

/-- `name LIKE '%suffix'`. -/
def sqlLikeSuffix (name suffix : String) : Bool := (lowered suffix).isSuffixOf (lowered name)

/-- The prune's test of one name column; a NULL passes no test. -/
def sqlBotName : Option String → Bool
  | some name => name == "The Count" || sqlLikeSuffix name "-Bert" || sqlLikeSuffix name "-Ernie"
  | none => false

/-! ## The table -/

/-- A row of `replays`, with the columns that the writers below read. -/
structure ReplayRow where
  id : String
  json : Option String
  title : Option String
  nameA : Option String
  nameB : Option String
  deriving DecidableEq

/-- The rows, no two of one id; `notNull` is the constraint that an old table has on `json`. -/
structure ReplayTable where
  rows : List ReplayRow
  notNull : Bool
  primary : (rows.map ReplayRow.id).Nodup

namespace ReplayTable

def new (notNull : Bool) : ReplayTable := ⟨[], notNull, List.nodup_nil⟩

def has (t : ReplayTable) (id : String) : Bool := (t.rows.map ReplayRow.id).contains id

/-- `INSERT OR IGNORE`: a row that breaks a constraint is left out. -/
def insertOrIgnore (t : ReplayTable) (r : ReplayRow) : ReplayTable :=
  if taken : t.has r.id = true ∨ t.notNull = true ∧ r.json = none then t
  else
    { t with
      rows := t.rows ++ [r]
      primary := by
        have fresh : r.id ∉ t.rows.map ReplayRow.id := fun member =>
          taken (.inl (List.contains_iff_mem.mpr member))
        rw [List.map_append, List.nodup_append]
        refine ⟨t.primary, List.nodup_singleton _, fun a member b same => ?_⟩
        rw [List.map_singleton, List.mem_singleton] at same
        rintro rfl
        rw [same] at member
        exact fresh member }

def withoutJson (id : String) (r : ReplayRow) : ReplayRow :=
  if r.id = id then { r with json := none } else r

theorem withoutJson_id (id : String) (r : ReplayRow) : (withoutJson id r).id = r.id := by
  unfold withoutJson
  split <;> rfl

/-- `UPDATE replays SET json = NULL WHERE id = ?`, an error on a row that may not be NULL. -/
def nullJson (t : ReplayTable) (id : String) : Option ReplayTable :=
  if t.notNull = true ∧ t.has id = true then none
  else
    some { t with
      rows := t.rows.map (withoutJson id)
      primary := by
        have ids : (t.rows.map (withoutJson id)).map ReplayRow.id = t.rows.map ReplayRow.id := by
          rw [List.map_map]
          exact List.map_congr_left fun r _ => withoutJson_id id r
        rw [ids]
        exact t.primary }

/-- The rows that the boot prune drops. -/
def pruned (r : ReplayRow) : Bool :=
  r.title.isNone && sqlBotName r.nameA && sqlBotName r.nameB && !replayRetained r.id

def prune (t : ReplayTable) : ReplayTable :=
  { t with
    rows := t.rows.filter fun r => !pruned r
    primary := (List.filter_sublist.map ReplayRow.id).nodup t.primary }

/-- The table rebuilt without the constraint. -/
def relax (t : ReplayTable) : ReplayTable := { t with notNull := false }

end ReplayTable

/-! ## The server and its bucket -/

/-- Where a replay's body lives. -/
inductive ReplayStore where
  | sqlite
  | bucket
  deriving DecidableEq

/-- What an upload parses to, as far as it decides whether and how it is stored. -/
structure Upload where
  tickCount : Nat
  title : Option String

/-- A prepared write: its blob, if it has one, is in the bucket, and its row is not in the
table yet. -/
structure ReplayWrite where
  id : String
  jsonCol : Option String
  title : Option String
  nameA : String
  nameB : String

/-- How a `put` ended; one that failed may have arrived all the same. -/
inductive Put where
  | stored
  | failed (arrived : Bool)
  deriving DecidableEq

def Put.arrives : Put → Bool
  | stored => true
  | failed arrived => arrived

/-- Where the boot migration stands: about to select a batch, to put the blob of a row, or to
clear the column of the row whose blob it has put. -/
inductive Migration where
  | idle
  | select
  | put (id json : String) (rest : List (String × String))
  | clear (id : String) (rest : List (String × String))

/-- Go on with what is left of a batch. -/
def Migration.ofBatch : List (String × String) → Migration
  | [] => .select
  | (id, json) :: rest => .put id json rest

structure Archive where
  table : ReplayTable
  blobs : String → Option String
  store : ReplayStore
  used : Bool
  writes : List ReplayWrite
  migration : Migration

def maxReplayTicks : Nat := 1000000

def migrationBatch : Nat := 500

/-- The bucket key of a replay's blob. -/
def replayBlobPath (id : String) : String := "replays/" ++ id ++ ".json"

theorem replayBlobPath_injective {id id' : String} (same : replayBlobPath id = replayBlobPath id') :
    id = id' := by
  unfold replayBlobPath at same
  have chars := congrArg String.toList same
  simp only [String.toList_append, List.append_assoc, List.append_cancel_left_eq,
    List.append_cancel_right_eq] at chars
  exact String.toList_inj.mp chars

/-- What happens to the archive.  Each event is one step, and a kill may fall between any two. -/
inductive ArchiveEvent where
  /-- An upload; the insert may report an error. -/
  | postReplay (body : String) (inserts : Bool)
  /-- A recording from the import directory. -/
  | importFile (txt : String) (inserts : Bool)
  /-- A settled match resolves its write; `put` is how the upload ends in Bucket mode. -/
  | prepareReplayWrite (json matchId nameA nameB : String) (put : Put)
  /-- A prepared write gets its row. -/
  | insertVersus (i : Nat) (inserts : Bool)
  | prune (commits : Bool)
  | relax (commits : Bool)
  /-- The migration selects its next batch; an empty one completes it. -/
  | selectBatch (batch : List (String × String))
  | putNext (put : Put)
  | clearNext (updates : Bool)
  /-- The process, killed wherever it was, comes up again. -/
  | boot (store : ReplayStore)

namespace Archive

variable (fromJson : String → Option Upload) (replayId : String → String)

def new (notNull : Bool) (store : ReplayStore) : Archive where
  table := .new notNull
  blobs _ := none
  store := store
  used := false
  writes := []
  migration := .idle

/-- The bucket with the blob of `id` in it, if the `put` got there. -/
def putBlob (a : Archive) (id json : String) (put : Put) : Archive :=
  if put.arrives then
    { a with blobs := Function.update a.blobs (replayBlobPath id) (some json), used := true }
  else a

def insertRow (a : Archive) (r : ReplayRow) (inserts : Bool) : Archive :=
  if inserts then { a with table := a.table.insertOrIgnore r } else a

/-- `db_insert`: the whole text goes into the row, in either mode. -/
def dbInsert (a : Archive) (txt : String) (title : Option String) (inserts : Bool) : Archive :=
  a.insertRow ⟨replayId txt, some txt, title, none, none⟩ inserts

def dbInsertVersus (a : Archive) (w : ReplayWrite) (inserts : Bool) : Archive :=
  a.insertRow ⟨w.id, w.jsonCol, w.title, some w.nameA, some w.nameB⟩ inserts

/-- Sampled-out filler leaves nothing; in Bucket mode the row follows only a `put` that
reported success. -/
def prepareReplayWrite (a : Archive) (json matchId nameA nameB : String) (put : Put) : Archive :=
  if botFillerReplay nameA nameB none && !replayRetained matchId then a
  else
    match a.store with
    | .sqlite => { a with writes := a.writes ++ [⟨replayId json, some json, none, nameA, nameB⟩] }
    | .bucket =>
      let a := a.putBlob (replayId json) json put
      if put = .stored then
        { a with writes := a.writes ++ [⟨replayId json, none, none, nameA, nameB⟩] }
      else a

/-- The `json` column of a row, or the blob it stands for. -/
def resolveReplayJson (a : Archive) (id : String) : Option String → Except String String
  | some json => .ok json
  | none =>
    match a.store with
    | .bucket =>
      match a.blobs (replayBlobPath id) with
      | some text => .ok text
      | none => .error ("bucket get " ++ replayBlobPath id)
    | .sqlite => .error ("replay " ++ id ++ " has a NULL json column and no bucket is configured")

/-- The rows with inline text. -/
def inline (a : Archive) : List (String × String) :=
  a.table.rows.filterMap fun r => r.json.map fun json => (r.id, json)

def act (a : Archive) : ArchiveEvent → Archive
  | .postReplay body inserts =>
    match fromJson body with
    | none => a
    | some r =>
      if r.tickCount > maxReplayTicks then a else a.dbInsert replayId body r.title inserts
  | .importFile txt inserts =>
    match fromJson txt with
    | none => a
    | some r => a.dbInsert replayId txt r.title inserts
  | .prepareReplayWrite json matchId nameA nameB put =>
    a.prepareReplayWrite replayId json matchId nameA nameB put
  | .insertVersus i inserts =>
    match a.writes[i]? with
    | some w => { a with writes := a.writes.eraseIdx i }.dbInsertVersus w inserts
    | none => a
  | .prune commits => if commits then { a with table := a.table.prune } else a
  | .relax commits => if commits then { a with table := a.table.relax } else a
  | .selectBatch batch =>
    { a with migration := if batch = [] then .idle else .ofBatch batch }
  | .putNext put =>
    match a.migration with
    | .put id json rest =>
      { a.putBlob id json put with
        migration := if put = .stored then .clear id rest else .idle }
    | _ => a
  | .clearNext updates =>
    match a.migration with
    | .clear id rest =>
      match a.table.nullJson id with
      | some table =>
        if updates then { a with table := table, migration := .ofBatch rest }
        else { a with migration := .idle }
      | none => { a with migration := .idle }
    | _ => a
  | .boot store =>
    { a with
      store := store
      writes := []
      migration := if store = .bucket then .select else .idle }

/-- A batch is what the query returns, and a bucket that has been used stays configured. -/
def Ok (a : Archive) : ArchiveEvent → Prop
  | .selectBatch batch =>
    a.migration = .select ∧ batch.length ≤ migrationBatch ∧
      (∀ p ∈ batch, p ∈ a.inline) ∧ (batch.length < migrationBatch → ∀ p ∈ a.inline, p ∈ batch)
  | .boot store => a.used = true → store = .bucket
  | _ => True

/-- The texts that an event hands to a writer. -/
def texts : ArchiveEvent → List String
  | .postReplay body _ => [body]
  | .importFile txt _ => [txt]
  | .prepareReplayWrite json .. => [json]
  | _ => []

/-- No two of the texts have one id. -/
def Distinct (written : List String) : Prop :=
  ∀ text ∈ written, ∀ text' ∈ written, replayId text = replayId text' → text = text'

variable {fromJson replayId} {a a' : Archive} {written written' : List String}

/-- The body of `id` is in the column, or the column is NULL and it is in the bucket. -/
def Lives (replayId : String → String) (written : List String) (a : Archive) (id : String)
    (json : Option String) : Prop :=
  ∃ text ∈ written, replayId text = id ∧
    (json = some text ∨
      json = none ∧ a.used = true ∧ a.blobs (replayBlobPath id) = some text)

/-- A batch pairs ids with their texts. -/
def Paired (replayId : String → String) (written : List String) (batch : List (String × String)) :
    Prop :=
  ∀ p ∈ batch, p.2 ∈ written ∧ replayId p.2 = p.1

/-- What the migration is about to do is backed by what it has done. -/
def Backed (replayId : String → String) (written : List String) (a : Archive) : Migration → Prop
  | .idle | .select => True
  | .put id json rest => Paired replayId written ((id, json) :: rest)
  | .clear id rest => Lives replayId written a id none ∧ Paired replayId written rest

/-- Every body is somewhere, also those of rows to come. -/
structure Kept (replayId : String → String) (written : List String) (a : Archive) : Prop where
  rows : ∀ r ∈ a.table.rows, Lives replayId written a r.id r.json
  writes : ∀ w ∈ a.writes, Lives replayId written a w.id w.jsonCol
  backed : Backed replayId written a a.migration
  configured : a.used = true → a.store = .bucket
  migrating : a.migration ≠ .idle → a.store = .bucket

/-- What the bucket holds for a written text, it goes on holding. -/
structure Grows (replayId : String → String) (written : List String) (a a' : Archive) : Prop where
  used : a.used = true → a'.used = true
  blobs : ∀ text ∈ written, a.blobs (replayBlobPath (replayId text)) = some text →
    a'.blobs (replayBlobPath (replayId text)) = some text

theorem Grows.of_eq (blobs : a'.blobs = a.blobs) (used : a'.used = a.used) :
    Grows replayId written a a' :=
  ⟨fun h => used.trans h, fun _ _ h => by rw [blobs]; exact h⟩

theorem Lives.grows {id : String} {json : Option String} (lives : Lives replayId written a id json)
    (more : written ⊆ written') (grows : Grows replayId written' a a') :
    Lives replayId written' a' id json := by
  obtain ⟨text, member, rfl, place⟩ := lives
  refine ⟨text, more member, rfl, place.imp_right ?_⟩
  rintro ⟨remote, used, blob⟩
  exact ⟨remote, grows.used used, grows.blobs text (more member) blob⟩

theorem Paired.more {batch : List (String × String)} (paired : Paired replayId written batch)
    (more : written ⊆ written') : Paired replayId written' batch :=
  fun p member => ⟨more (paired p member).1, (paired p member).2⟩

theorem Backed.grows {m : Migration} (backed : Backed replayId written a m)
    (more : written ⊆ written') (grows : Grows replayId written' a a') :
    Backed replayId written' a' m := by
  cases m with
  | idle => trivial
  | select => trivial
  | put id json rest => exact Paired.more backed more
  | clear id rest => exact ⟨backed.1.grows more grows, backed.2.more more⟩

theorem backed_ofBatch {batch : List (String × String)} (paired : Paired replayId written batch) :
    Backed replayId written a (.ofBatch batch) := by
  cases batch with
  | nil => trivial
  | cons p rest => exact paired

/-- A `put` of a written text takes nothing from another. -/
theorem grows_putBlob (distinct : Distinct replayId written) {json : String}
    (member : json ∈ written) (put : Put) :
    Grows replayId written a (a.putBlob (replayId json) json put) := by
  unfold putBlob
  split
  · refine ⟨fun _ => rfl, fun text there blob => ?_⟩
    by_cases same : replayId text = replayId json
    · obtain rfl := distinct text there json member same
      exact Function.update_self ..
    · have apart : replayBlobPath (replayId text) ≠ replayBlobPath (replayId json) :=
        fun paths => same (replayBlobPath_injective paths)
      exact (Function.update_of_ne apart ..).trans blob
  · exact .of_eq rfl rfl

/-- What only changes the bucket, to hold more, keeps all bodies. -/
theorem Kept.grows (kept : Kept replayId written a) (more : written ⊆ written')
    (grows : Grows replayId written' a a') (table : a'.table = a.table)
    (writes : a'.writes = a.writes) (migration : a'.migration = a.migration)
    (store : a'.store = a.store) (configured : a'.used = true → a.store = .bucket) :
    Kept replayId written' a' := by
  refine ⟨fun r member => ?_, fun w member => ?_, ?_, fun used => store.trans (configured used),
    fun busy => store.trans (kept.migrating (by rwa [migration] at busy))⟩
  · rw [table] at member
    exact (kept.rows r member).grows more grows
  · rw [writes] at member
    exact (kept.writes w member).grows more grows
  · rw [migration]
    exact kept.backed.grows more grows

/-- A row comes in whose body is somewhere. -/
theorem Kept.insertRow (kept : Kept replayId written a) {r : ReplayRow}
    (lives : Lives replayId written a r.id r.json) (inserts : Bool) :
    Kept replayId written (a.insertRow r inserts) := by
  unfold Archive.insertRow
  split
  · refine ⟨fun s member => ?_, kept.writes, kept.backed, kept.configured, kept.migrating⟩
    have cases : s ∈ a.table.rows ∨ s = r := by
      unfold ReplayTable.insertOrIgnore at member
      split at member
      · exact .inl member
      · exact (List.mem_append.mp member).imp_right List.mem_singleton.mp
    rcases cases with old | rfl
    · exact kept.rows s old
    · exact lives
  · exact kept

/-- A row goes, or its column is cleared when its body is in the bucket. -/
theorem Kept.table (kept : Kept replayId written a) {table : ReplayTable}
    (rows : ∀ r ∈ table.rows, Lives replayId written a r.id r.json) :
    Kept replayId written { a with table := table } :=
  ⟨rows, kept.writes, kept.backed, kept.configured, kept.migrating⟩

theorem Kept.idle (kept : Kept replayId written a) :
    Kept replayId written { a with migration := .idle } :=
  ⟨kept.rows, kept.writes, trivial, kept.configured, fun busy => absurd rfl busy⟩

/-- The migration goes on. -/
theorem Kept.migrate (kept : Kept replayId written a) (bucket : a.store = .bucket) {m : Migration}
    (backed : Backed replayId written a m) : Kept replayId written { a with migration := m } :=
  ⟨kept.rows, kept.writes, backed, kept.configured, fun _ => bucket⟩

theorem Kept.more (kept : Kept replayId written a) (more : written ⊆ written') :
    Kept replayId written' a :=
  kept.grows more (.of_eq rfl rfl) rfl rfl rfl rfl kept.configured

theorem kept_dbInsert (kept : Kept replayId written a) {txt : String} (member : txt ∈ written)
    (title : Option String) (inserts : Bool) :
    Kept replayId written (a.dbInsert replayId txt title inserts) :=
  kept.insertRow ⟨txt, member, rfl, .inl rfl⟩ inserts

theorem putBlob_stored (a : Archive) (id json : String) :
    (a.putBlob id json .stored).used = true ∧
      (a.putBlob id json .stored).blobs (replayBlobPath id) = some json :=
  ⟨rfl, Function.update_self ..⟩

theorem kept_putBlob (kept : Kept replayId written a) (distinct : Distinct replayId written)
    (bucket : a.store = .bucket) {json : String} (member : json ∈ written) (put : Put) :
    Kept replayId written (a.putBlob (replayId json) json put) := by
  have grows := grows_putBlob (a := a) distinct member put
  unfold putBlob at grows ⊢
  split
  · next arrived =>
    rw [if_pos arrived] at grows
    exact kept.grows (List.Subset.refl _) grows rfl rfl rfl rfl fun _ => bucket
  · exact kept

theorem kept_addWrite (kept : Kept replayId written a) {w : ReplayWrite}
    (lives : Lives replayId written a w.id w.jsonCol) :
    Kept replayId written { a with writes := a.writes ++ [w] } := by
  refine ⟨kept.rows, fun v member => ?_, kept.backed, kept.configured, kept.migrating⟩
  rcases List.mem_append.mp member with old | new
  · exact kept.writes v old
  · rw [List.mem_singleton.mp new]
    exact lives

/-- The blob is in the bucket before the write exists, and the write before its row. -/
theorem kept_prepareReplayWrite (kept : Kept replayId written a)
    (distinct : Distinct replayId written) {json : String} (member : json ∈ written)
    (matchId nameA nameB : String) (put : Put) :
    Kept replayId written (a.prepareReplayWrite replayId json matchId nameA nameB put) := by
  unfold prepareReplayWrite
  split
  · exact kept
  · split
    · have lives : Lives replayId written a (replayId json) (some json) :=
        ⟨json, member, rfl, .inl rfl⟩
      exact kept_addWrite kept (w := ⟨replayId json, some json, none, nameA, nameB⟩) lives
    · next store =>
      have stored := kept_putBlob kept distinct store member put
      dsimp only
      split
      · next success =>
        subst success
        obtain ⟨used, blob⟩ := putBlob_stored a (replayId json) json
        have lives : Lives replayId written (a.putBlob (replayId json) json .stored) (replayId json)
            none := ⟨json, member, rfl, .inr ⟨rfl, used, blob⟩⟩
        exact kept_addWrite stored (w := ⟨replayId json, none, none, nameA, nameB⟩) lives
      · exact stored

/-- The body of the row that the migration clears is in the bucket by then. -/
theorem kept_clearNext (kept : Kept replayId written a) {id : String}
    {rest : List (String × String)} (here : a.migration = .clear id rest) {table : ReplayTable}
    (cleared : a.table.nullJson id = some table) :
    Kept replayId written { a with table := table, migration := .ofBatch rest } := by
  have backed := kept.backed
  rw [here] at backed
  obtain ⟨lives, paired⟩ := backed
  have bucket := kept.migrating (by rw [here]; exact nofun)
  have rows : ∀ r ∈ table.rows, Lives replayId written a r.id r.json := ?_
  · exact (kept.table rows).migrate bucket (backed_ofBatch paired)
  intro r member
  unfold ReplayTable.nullJson at cleared
  split at cleared
  · cases cleared
  · cases cleared
    obtain ⟨old, there, rfl⟩ := List.mem_map.mp member
    unfold ReplayTable.withoutJson
    split
    · next same =>
      rw [same]
      exact lives
    · exact kept.rows old there

/-- No event loses a body. -/
theorem kept_act (e : ArchiveEvent) (kept : Kept replayId written a) (ok : a.Ok e)
    (distinct : Distinct replayId (written ++ texts e)) :
    Kept replayId (written ++ texts e) (a.act fromJson replayId e) := by
  have before := kept.more (List.subset_append_left written (texts e))
  cases e with
  | postReplay body inserts =>
    have member : body ∈ written ++ texts (.postReplay body inserts) := by simp [texts]
    dsimp only [act]
    split
    · exact before
    · split
      · exact before
      · exact kept_dbInsert before member _ _
  | importFile txt inserts =>
    have member : txt ∈ written ++ texts (.importFile txt inserts) := by simp [texts]
    dsimp only [act]
    split
    · exact before
    · exact kept_dbInsert before member _ _
  | prepareReplayWrite json matchId nameA nameB put =>
    exact kept_prepareReplayWrite before distinct (by simp [texts]) matchId nameA nameB put
  | insertVersus i inserts =>
    dsimp only [act]
    cases found : a.writes[i]? with
    | none => exact before
    | some w =>
      have lives := before.writes w (List.mem_of_getElem? found)
      have rest : Kept replayId (written ++ texts (.insertVersus i inserts))
          { a with writes := a.writes.eraseIdx i } :=
        ⟨before.rows, fun v member => before.writes v (List.mem_of_mem_eraseIdx member),
          before.backed, before.configured, before.migrating⟩
      exact rest.insertRow (r := ⟨w.id, w.jsonCol, w.title, some w.nameA, some w.nameB⟩) lives
        inserts
  | prune commits =>
    dsimp only [act]
    split
    · exact before.table fun r member => before.rows r (List.mem_of_mem_filter member)
    · exact before
  | relax commits =>
    dsimp only [act]
    split
    · exact before.table before.rows
    · exact before
  | selectBatch batch =>
    dsimp only [act]
    split
    · exact before.idle
    · -- a selected row has its text inline, and that is the text of its id
      have bucket := before.migrating (by rw [ok.1]; exact nofun)
      refine before.migrate bucket (backed_ofBatch fun p member => ?_)
      obtain ⟨r, there, selected⟩ := List.mem_filterMap.mp (ok.2.2.1 p member)
      obtain ⟨json, column, rfl⟩ := Option.map_eq_some_iff.mp selected
      obtain ⟨text, known, same, place⟩ := before.rows r there
      rcases place with inline | ⟨null, -⟩
      · rw [column] at inline
        cases inline
        exact ⟨known, same⟩
      · rw [column] at null
        cases null
  | putNext put =>
    dsimp only [act]
    split
    · next id json rest here =>
      have backed := before.backed
      rw [here] at backed
      obtain ⟨member, same⟩ := backed (id, json) List.mem_cons_self
      dsimp only at member same
      subst same
      have bucket := before.migrating (by rw [here]; exact nofun)
      have sent := kept_putBlob before distinct bucket member put
      split
      · next success =>
        subst success
        obtain ⟨used, blob⟩ := putBlob_stored a (replayId json) json
        exact sent.migrate bucket ⟨⟨json, member, rfl, .inr ⟨rfl, used, blob⟩⟩,
          fun p there => backed p (List.mem_cons_of_mem _ there)⟩
      · exact sent.idle
    · exact before
  | clearNext updates =>
    dsimp only [act]
    split
    · next id rest here =>
      cases cleared : a.table.nullJson id with
      | none => exact before.idle
      | some table =>
        dsimp only
        split
        · exact kept_clearNext before here cleared
        · exact before.idle
    · exact before
  | boot store =>
    dsimp only [act]
    refine ⟨before.rows, fun w member => absurd member List.not_mem_nil, ?_, fun used => ok used,
      ?_⟩
    · split <;> trivial
    · dsimp only
      split
      · next bucket => exact fun _ => bucket
      · exact fun busy => absurd rfl busy

theorem kept_new (notNull : Bool) (store : ReplayStore) :
    Kept replayId [] (new notNull store) :=
  ⟨fun _ member => absurd member List.not_mem_nil, fun _ member => absurd member List.not_mem_nil,
    trivial, nofun, fun busy => absurd rfl busy⟩

theorem kept_run {notNull : Bool} {store : ReplayStore} {es : List ArchiveEvent}
    (run : Run Ok (act fromJson replayId) (new notNull store) es a)
    (distinct : Distinct replayId (es.flatMap texts)) : Kept replayId (es.flatMap texts) a := by
  induction run with
  | nil => exact kept_new notNull store
  | snoc run allowed ih =>
    rw [List.flatMap_append, List.flatMap_singleton] at distinct ⊢
    refine kept_act _ (ih ?_) allowed distinct
    intro text member text' member'
    exact distinct text (List.mem_append_left _ member) text' (List.mem_append_left _ member')

/-- A body that is somewhere is served as it was written. -/
theorem Kept.resolve (kept : Kept replayId written a) {r : ReplayRow} (row : r ∈ a.table.rows) :
    ∃ text ∈ written, replayId text = r.id ∧
      (r.json = some text ∨ r.json = none ∧ a.blobs (replayBlobPath r.id) = some text) ∧
      a.resolveReplayJson r.id r.json = .ok text := by
  obtain ⟨text, member, same, place⟩ := kept.rows r row
  refine ⟨text, member, same, ?_⟩
  rcases place with inline | ⟨null, used, blob⟩
  · rw [inline]
    exact ⟨.inl rfl, rfl⟩
  · refine ⟨.inr ⟨null, blob⟩, ?_⟩
    rw [null]
    unfold resolveReplayJson
    rw [kept.configured used]
    dsimp only
    rw [blob]

/-- An empty batch leaves nothing inline. -/
theorem Ok.none_inline (completes : a.Ok (.selectBatch [])) :
    ∀ r ∈ a.table.rows, r.json = none := by
  intro r row
  obtain ⟨-, -, -, all⟩ := completes
  cases column : r.json with
  | none => rfl
  | some json =>
    refine absurd (all (by decide) (r.id, json) ?_) List.not_mem_nil
    refine List.mem_filterMap.mpr ⟨r, row, ?_⟩
    rw [column]
    rfl

/-- In every run, whatever fails or is killed on the way, the text written under the id of a
row is in the row or in the bucket, and is what is served for it; and a migration that
completes has left no text inline. -/
theorem bodies_kept {notNull : Bool} {store : ReplayStore} {es : List ArchiveEvent}
    (run : Run Ok (act fromJson replayId) (new notNull store) es a)
    (distinct : Distinct replayId (es.flatMap texts)) :
    (∀ r ∈ a.table.rows, ∃ text ∈ es.flatMap texts, replayId text = r.id ∧
      (r.json = some text ∨ r.json = none ∧ a.blobs (replayBlobPath r.id) = some text) ∧
      a.resolveReplayJson r.id r.json = .ok text) ∧
    (a.Ok (.selectBatch []) →
      ∀ r ∈ (a.act fromJson replayId (.selectBatch [])).table.rows, r.json = none) :=
  ⟨fun _ row => (kept_run run distinct).resolve row, fun completes => completes.none_inline⟩

/-- The body of an empty recording, and its id. -/
def emptyBody : String :=
  "\x7b\"version\":1,\"seed\":1,\"mode\":\"Practice\",\"ai_level\":null,\"dt_ms\":16," ++
    "\"engine_sha\":\"dev\",\"tick_count\":0,\"frames\":[]\x7d"

def emptyId : String := "90d4d27723057458"

/-- It is uploaded to an old table, and migrated by a boot that is killed behind the put and
by the next one. -/
def twiceMigrated : List ArchiveEvent :=
  [.postReplay emptyBody true, .relax true, .boot .bucket, .selectBatch [(emptyId, emptyBody)],
    .putNext .stored, .boot .bucket, .selectBatch [(emptyId, emptyBody)], .putNext .stored,
    .clearNext true]

theorem run_twiceMigrated :
    Run Ok (act (fun _ => some ⟨0, none⟩) fun _ => emptyId) (new true .sqlite) twiceMigrated
      (twiceMigrated.foldl (act (fun _ => some ⟨0, none⟩) fun _ => emptyId)
        (new true .sqlite)) := by
  have selects {a : Archive} (here : a.migration = .select)
      (rows : a.inline = [(emptyId, emptyBody)]) : a.Ok (.selectBatch [(emptyId, emptyBody)]) := by
    refine ⟨here, by decide, fun p member => ?_, fun _ p member => ?_⟩
    · rwa [rows]
    · rwa [rows] at member
  refine ((((((((Run.nil.snoc trivial).snoc trivial).snoc ?_).snoc ?_).snoc trivial).snoc
    ?_).snoc ?_).snoc trivial).snoc trivial
  · exact fun used => rfl
  · exact selects rfl rfl
  · exact fun used => rfl
  · exact selects rfl rfl

theorem bodies_kept_twiceMigrated :
    ∃ a, a = twiceMigrated.foldl (act (fun _ => some ⟨0, none⟩) fun _ => emptyId)
        (new true .sqlite) ∧
      ∀ r ∈ a.table.rows, ∃ text ∈ twiceMigrated.flatMap texts, emptyId = r.id ∧
        (r.json = some text ∨ r.json = none ∧ a.blobs (replayBlobPath r.id) = some text) ∧
        a.resolveReplayJson r.id r.json = .ok text := by
  refine ⟨_, rfl, (bodies_kept run_twiceMigrated ?_).1⟩
  intro text member text' member' _
  simp only [twiceMigrated, texts, List.flatMap_cons, List.flatMap_nil, List.append_nil,
    List.mem_cons, List.not_mem_nil, or_false] at member member'
  rw [member, member']

end Archive

end BattleTris
