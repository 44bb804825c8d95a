import AtsigCommon.Logger.Context
import AtsigCommon.Python.JsonText

/-!
# The lines of the log

`UnifiedFormatter` of `atsig_common.logger.config` writes a record as one JSON object, under the
context variables of `atsig_common.logger.context`, and the handler ends it with a line break.

* `formatRecord`, `logStream` — a record, and all that was written.
* `parseLog` — what a reader makes of the stream: it cuts it at the line breaks and reads each line.
* `ReadsAs` — what the reader finds in the object of a record.
* `log_reads_back` — the reader gets the records that were logged, whatever their texts hold.
-/

namespace Atsig

open Python

/-- `request_id_var`, `user_id_var` and `user_email_var`.  The last two are what the claims of a
token hold. -/
structure LogContext where
  requestId : String := noRequestId
  userId : Json := .null
  userEmail : Json := .null

/-- A `LogRecord`, with the texts that `formatTime`, `getMessage` and `formatException` make of
it. -/
structure LogRecord where
  timestamp : String
  levelname : String
  name : String
  message : String
  exception : Option String

/-- `value or default` -/
def orText (value : Json) (default : String) : Json := if value.truthy then value else .str default

section Format

variable (includeUserEmail : Bool) (ctx : LogContext) (record : LogRecord)

/-- `log_record`, before the user is taken out of it. -/
def fullRecord : Dict String Json :=
  Dict.ofPairs [("timestamp", .str record.timestamp), ("level", .str record.levelname),
    ("request_id", .str ctx.requestId), ("user_id", orText ctx.userId "anonymous"),
    ("user_email", orText ctx.userEmail "no-email"), ("logger", .str record.name),
    ("message", .str record.message)]

/-- `log_record` -/
def logRecord : Dict String Json :=
  let base := if includeUserEmail then fullRecord ctx record
    else (fullRecord ctx record).erase ["user_email"]
  match record.exception with
  | some text => base.set "exception" (.str text)
  | none => base

variable [FloatText]

/-- `format`: `json.dumps(log_record, ensure_ascii=False)` -/
def formatRecord : String :=
  dumpsText ⟨false, true⟩ (.obj (logRecord includeUserEmail ctx record).items)

/-- What the handler writes to the stream: every record and a line break after it. -/
def logStream (entries : List (LogContext × LogRecord)) : String :=
  .ofList (entries.flatMap fun e => (formatRecord includeUserEmail e.1 e.2).toList ++ ['\n'])

omit includeUserEmail

/-- The lines of the stream, without what comes after the last line break, and each of them as
JSON. -/
def parseLog (stream : String) : Except PyException (List Json) :=
  ((stream.toList.splitOn '\n').dropLast.map String.ofList).mapM loadsText

end Format

/-! ## What is found in a record -/

section Fields

variable (includeUserEmail : Bool) (ctx : LogContext) (record : LogRecord)

/-- The exception is the last field. -/
lemma get?_logRecord (key : String) : (logRecord includeUserEmail ctx record).get? key
    = if key = "exception" then record.exception.map .str
      else if includeUserEmail = false ∧ key = "user_email" then none
      else (fullRecord ctx record).get? key := by
  have hbase : ∀ key, (if includeUserEmail then fullRecord ctx record
      else (fullRecord ctx record).erase ["user_email"]).get? key
      = if includeUserEmail = false ∧ key = "user_email" then none
        else (fullRecord ctx record).get? key := by
    intro key
    cases includeUserEmail with
    | true => simp
    | false => simp
  rw [logRecord]
  cases record.exception with
  | some text =>
      dsimp only
      rw [Dict.get?_set, hbase]
      rfl
  | none =>
      dsimp only
      rw [hbase]
      by_cases hkey : key = "exception"
      · subst hkey
        rw [if_pos rfl, if_neg fun h => absurd h.2 (by decide)]
        rfl
      · rw [if_neg hkey]

/-- The fields of a record. -/
def recordKeys : List String :=
  ["timestamp", "level", "request_id", "user_id", "user_email", "logger", "message", "exception"]

/-- What the reader finds in the object of a record: what was logged under its own keys, the user's
id, the email if it is to be there, and nothing else. -/
structure ReadsAs (read : Dict String Json) : Prop where
  timestamp : read.get? "timestamp" = some (.str record.timestamp)
  level : read.get? "level" = some (.str record.levelname)
  logger : read.get? "logger" = some (.str record.name)
  message : read.get? "message" = some (.str record.message)
  requestId : read.get? "request_id" = some (.str ctx.requestId)
  userId : read.get? "user_id"
    = some (if ctx.userId.truthy then ctx.userId else .str "anonymous")
  userEmail : read.get? "user_email" = if includeUserEmail then
    some (if ctx.userEmail.truthy then ctx.userEmail else .str "no-email") else none
  exception : read.get? "exception" = record.exception.map .str
  others : ∀ key ∉ recordKeys, read.get? key = none

lemma get?_fullRecord_of_notMem {key : String} (h : key ∉ recordKeys) :
    (fullRecord ctx record).get? key = none := by
  refine Option.eq_none_iff_forall_ne_some.mpr fun v hv => h ?_
  have hmem := List.mem_map_of_mem (f := Prod.fst) (Dict.mem_of_get?_ofPairs hv)
  simp only [List.map_cons, List.map_nil, List.mem_cons, List.not_mem_nil, or_false] at hmem
  simp only [recordKeys, List.mem_cons, List.not_mem_nil, or_false]
  tauto

/-- The record has what it is to have. -/
lemma readsAs_logRecord :
    ReadsAs includeUserEmail ctx record (logRecord includeUserEmail ctx record) where
  timestamp := by simp [get?_logRecord]; rfl
  level := by simp [get?_logRecord]; rfl
  logger := by simp [get?_logRecord]; rfl
  message := by simp [get?_logRecord]; rfl
  requestId := by simp [get?_logRecord]; rfl
  userId := by simp [get?_logRecord]; rfl
  userEmail := by
    rw [get?_logRecord, if_neg (by decide)]
    cases includeUserEmail with
    | true => rfl
    | false => rfl
  exception := by rw [get?_logRecord, if_pos rfl]
  others key hkey := by
    have hexception : key ≠ "exception" := fun h => hkey (h ▸ by decide)
    rw [get?_logRecord, if_neg hexception, get?_fullRecord_of_notMem ctx record hkey, ite_self]

/-- Without the email the record says nothing about it. -/
lemma logRecord_false (email : Json) :
    logRecord false { ctx with userEmail := email } record = logRecord false ctx record := rfl

lemma plain_orText {value : Json} (h : value.Plain) (default : String) :
    (orText value default).Plain := by
  rw [orText]
  split_ifs
  · exact h
  · exact .str _

variable {ctx}

/-- The user's claims can be written and read: no float is in them.  The email counts if it is
written. -/
structure LogContext.Plain (includeUserEmail : Bool) (ctx : LogContext) : Prop where
  userId : ctx.userId.Plain
  userEmail : includeUserEmail = true → ctx.userEmail.Plain

/-- A record holds no float, as long as the claims of the user hold none. -/
lemma plain_logRecord (hplain : ctx.Plain includeUserEmail) :
    (Json.obj (logRecord includeUserEmail ctx record).items).Plain := by
  refine .obj _ (logRecord includeUserEmail ctx record).nodup fun p hp => ?_
  have hget := Dict.get?_eq_some_iff.mpr hp
  rw [get?_logRecord] at hget
  split_ifs at hget with hexception hnone
  · obtain ⟨text, -, htext⟩ := Option.map_eq_some_iff.mp hget
    exact htext ▸ .str text
  · have hmem := Dict.mem_of_get?_ofPairs hget
    simp only [List.mem_cons, Prod.mk.injEq, List.not_mem_nil, or_false] at hmem
    rcases hmem with ⟨-, h⟩ | ⟨-, h⟩ | ⟨-, h⟩ | ⟨-, h⟩ | ⟨hkey, h⟩ | ⟨-, h⟩ | ⟨-, h⟩
    · exact h ▸ .str _
    · exact h ▸ .str _
    · exact h ▸ .str _
    · exact h ▸ plain_orText hplain.userId _
    · have hincluded : includeUserEmail = true := by
        by_contra hnot
        exact hnone ⟨Bool.eq_false_iff.mpr hnot, hkey⟩
      exact h ▸ plain_orText (hplain.userEmail hincluded) _
    · exact h ▸ .str _
    · exact h ▸ .str _

end Fields

/-! ## What the reader gets -/

/-- Lines that hold no line break are found again. -/
lemma splitOn_lines : ∀ {lines : List (List Char)}, (∀ line ∈ lines, '\n' ∉ line) →
    (lines.flatMap fun line => line ++ ['\n']).splitOn '\n' = lines ++ [[]]
  | [], _ => rfl
  | line :: lines, h => by
      have hline : line.splitOn '\n' = [line] := by
        have hfree : ∀ l ∈ [line], '\n' ∉ l := by
          intro l hl
          rw [List.mem_singleton.mp hl]
          exact h line (List.mem_cons_self ..)
        have hsplit := List.splitOn_intercalate '\n' hfree (by simp)
        rwa [List.intercalate_singleton] at hsplit
      rw [List.flatMap_cons, List.append_assoc, List.singleton_append,
        List.splitOn_append_cons_self, hline,
        splitOn_lines fun l hl => h l (List.mem_cons_of_mem _ hl)]
      rfl

/-- **The log reads back.**  Whatever the messages, the exceptions and the ids hold, the reader
gets one object for each record, in the order in which they were logged, each with what it was
logged with; the email of the user is among it if it is to be, and otherwise the lines are the same
for every email. -/
theorem log_reads_back [FloatText] (includeUserEmail : Bool)
    (entries : List (LogContext × LogRecord))
    (hplain : ∀ e ∈ entries, e.1.Plain includeUserEmail) :
    parseLog (logStream includeUserEmail entries)
        = .ok (entries.map fun e => .obj (logRecord includeUserEmail e.1 e.2).items)
      ∧ (∀ e ∈ entries,
        ReadsAs includeUserEmail e.1 e.2 (logRecord includeUserEmail e.1 e.2))
      ∧ ∀ e ∈ entries, includeUserEmail = false → ∀ email,
        formatRecord includeUserEmail { e.1 with userEmail := email } e.2
          = formatRecord includeUserEmail e.1 e.2 := by
  refine ⟨?_, fun e _ => readsAs_logRecord includeUserEmail e.1 e.2, ?_⟩
  · let lines := entries.map fun e => (formatRecord includeUserEmail e.1 e.2).toList
    have hstream : (logStream includeUserEmail entries).toList
        = lines.flatMap fun line => line ++ ['\n'] := by
      rw [logStream, String.toList_ofList, List.flatMap_map]
    have hbreak : ∀ line ∈ lines, '\n' ∉ line := by
      intro line hline hmem
      obtain ⟨e, he, rfl⟩ := List.mem_map.mp hline
      rw [formatRecord, dumpsText, String.toList_ofList] at hmem
      have hprintable := isPrintable_of_mem_writeJson
        (plain_logRecord includeUserEmail e.2 (hplain e he)) '\n' hmem
      exact absurd hprintable.1 (by decide)
    have htexts : lines.map String.ofList
        = entries.map fun e => formatRecord includeUserEmail e.1 e.2 := by
      rw [List.map_map]
      exact List.map_congr_left fun e _ => String.ofList_toList
    have hread : ∀ e ∈ entries, loadsText (formatRecord includeUserEmail e.1 e.2)
        = .ok (.obj (logRecord includeUserEmail e.1 e.2).items) :=
      fun e he => loads_write _ (plain_logRecord includeUserEmail e.2 (hplain e he))
    rw [parseLog, hstream, splitOn_lines hbreak, List.dropLast_concat, htexts, List.mapM_map]
    exact mapM_ok hread
  · rintro e - rfl email
    rw [formatRecord, logRecord_false]
    rfl

section Forged

attribute [local instance] integerText

/-- A message that looks like two records is one. -/
theorem log_reads_back_forged :
    (parseLog (logStream false [({ requestId := "abc" },
        ⟨"2026-01-01 10:00:00", "INFO", "app", "a\n\"level\": \"ERROR\"", none⟩)])).map List.length
      = .ok 1 := by
  rw [(log_reads_back false _ fun e he => ?_).1]
  · rfl
  · rw [List.mem_singleton.mp he]
    exact ⟨.null, fun _ => .null⟩

end Forged

end Atsig
