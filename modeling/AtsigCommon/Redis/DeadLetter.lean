import AtsigCommon.Redis.Handling
import AtsigCommon.Redis.NoLeak
import Mathlib.Data.Finset.Max

/-!
# Reading a dead letter back

A dead letter holds the fields of its entry as JSON.  `_handle_entry` writes the fields that it
decoded; `_reject_invalid_message` and `_dead_letter_reclaimed` write what the client gave, with
`str` of the keys and of what JSON does not know.  For a client that decodes its answers this is
the same; `str` of a bytes object is its literal.

* `ClientText` — the two kinds of clients.
* `dead_letter_readable_iff` — when a dead letter can be read back, and does not depend on the
  client.
-/

namespace Atsig

open Coroutine Python

/-! ## What a client gives -/

/-- A client gives the text of a stream as `str` or as `bytes`. -/
inductive ClientText
  | str
  | bytes
  deriving DecidableEq

/-- A text of the stream, as the client gives it. -/
def ClientText.give : ClientText → String → Text
  | .str, s => .str s
  | .bytes, s => .bytes s.toUTF8

lemma ClientText.give_injective (client : ClientText) : Function.Injective client.give := by
  intro s t h
  cases client with
  | str => exact Text.str.inj h
  | bytes => exact String.toByteArray_inj.mp (Text.bytes.inj h)

lemma ClientText.decode_give (client : ClientText) (s : String) : decode (client.give s) = .ok s := by
  cases client with
  | str => rfl
  | bytes =>
      have h : String.fromUTF8? s.toUTF8 = some s := by
        rw [String.fromUTF8?, String.toUTF8_eq_toByteArray, dif_pos s.isValidUTF8]
        rfl
      rw [give, decode, h]

/-- The fields of an entry, as the client gives them. -/
def ClientText.fields (client : ClientText) (entry : Dict String String) : Fields where
  items := entry.items.map fun p => (client.give p.1, client.give p.2)
  nodup := by
    rw [List.map_map]
    have h := entry.nodup.map client.give_injective
    rwa [List.map_map] at h

/-- Decoding gives the entry back, whatever the client. -/
lemma normalize_fields (client : ClientText) (entry : Dict String String) :
    normalize (client.fields entry) = .ok entry := by
  have hitems : (client.fields entry).items.mapM (fun p => (do
      return (← decode p.1, ← decode p.2) : Except PyException (String × String)))
        = .ok entry.items := by
    rw [ClientText.fields, List.mapM_map]
    have h := mapM_ok (f := fun p : String × String => (do
      return (← decode (client.give p.1), ← decode (client.give p.2)) :
        Except PyException (String × String))) (g := id) (l := entry.items) fun p _ => by
          rw [client.decode_give, client.decode_give]
          rfl
    rw [List.map_id] at h
    exact h
  rw [normalize, Dict.comprehend, hitems]
  exact congrArg Except.ok (Dict.ext (Dict.items_ofPairs entry.nodup))

/-! ## `str` of bytes -/

lemma length_toList_loop (b : ByteArray) : ∀ (i : ℕ) (r : List UInt8), i ≤ b.size →
    (ByteArray.toList.loop b i r).length = r.length + (b.size - i) := by
  intro i r hi
  induction hn : b.size - i generalizing i r with
  | zero =>
      rw [ByteArray.toList.loop, if_neg (by omega), List.length_reverse, Nat.add_zero]
  | succ n ih =>
      rw [ByteArray.toList.loop, if_pos (by omega), ih (i + 1) _ (by omega) (by omega),
        List.length_cons]
      omega

lemma length_toList (b : ByteArray) : b.toList.length = b.size := by
  rw [ByteArray.toList, length_toList_loop b 0 [] (Nat.zero_le _)]
  simp

lemma length_reprByte (quote : Char) (b : UInt8) : 1 ≤ (reprByte quote b).length := by
  rw [reprByte]
  split_ifs <;> simp

/-- The literal of some bytes is longer than they are. -/
lemma length_reprBytes (b : ByteArray) : b.size + 3 ≤ (reprBytes b).toList.length := by
  have hbytes : ∀ (quote : Char) (l : List UInt8), l.length ≤ (l.flatMap (reprByte quote)).length := by
    intro quote l
    induction l with
    | nil => exact Nat.le_refl _
    | cons c l ih =>
        have := length_reprByte quote c
        rw [List.flatMap_cons, List.length_append, List.length_cons]
        omega
  rw [reprBytes, String.toList_ofList]
  have h := hbytes (if b.toList.contains 39 && !b.toList.contains 34 then '"' else Char.ofNat 39)
    b.toList
  rw [length_toList] at h
  simp only [List.cons_append, List.length_cons, List.length_append, List.length_nil]
  omega

lemma length_le_size (s : String) : s.toList.length ≤ s.toUTF8.size := by
  have hlist : ∀ l : List Char, l.length ≤ (l.flatMap String.utf8EncodeChar).length := by
    intro l
    induction l with
    | nil => exact Nat.le_refl _
    | cons c l ih =>
        have := c.utf8Size_pos
        rw [List.flatMap_cons, List.length_append, List.length_cons, String.length_utf8EncodeChar]
        omega
  have hsize : s.toUTF8.size = (s.toList.flatMap String.utf8EncodeChar).length := by
    rw [String.toUTF8_eq_toByteArray, ← String.utf8Encode_toList, List.utf8Encode,
      List.size_toByteArray]
  rw [hsize]
  exact hlist s.toList

/-- What `str` makes of a key of a client that does not decode is longer than the key. -/
lemma length_lt_toStr (s : String) :
    s.toList.length < ((ClientText.bytes.give s).toStr).toList.length := by
  have hbytes := length_reprBytes s.toUTF8
  have hsize := length_le_size s
  rw [ClientText.give, Text.toStr]
  omega

/-! ## The JSON of a dead letter -/

section Payloads

variable [StandardLibrary]

/-- The JSON of a dictionary of texts. -/
def textJson (items : List (String × String)) : Json :=
  .obj (items.map fun p => (p.1, .str p.2))

omit [StandardLibrary] in
lemma textJson_injective : Function.Injective textJson := by
  intro items items' h
  injection h with h
  refine List.map_injective_iff.mpr ?_ h
  rintro ⟨k, v⟩ ⟨k', v'⟩ hp
  injection hp with hk hv
  injection hv with hv
  exact Prod.ext hk hv

/-- The text is the JSON of the entry. -/
def ReadsBack (payload : String) (entry : Dict String String) : Prop :=
  ∃ items, StandardLibrary.loads payload = .ok (textJson items) ∧ items.Perm entry.items

/-- What `str` makes of a dictionary. -/
def strItems (fields : Fields) : List (String × String) :=
  (stringKeys fields).items.map fun p => (p.1, p.2.toStr)

lemma dumps_stringKeys (fields : Fields) :
    dumpsDefaultStr (stringKeys fields) = StandardLibrary.dumps (textJson (strItems fields)) := by
  rw [dumpsDefaultStr, textJson, strItems, List.map_map]
  rfl

omit [StandardLibrary] in
/-- For a client that decodes, `str` changes nothing. -/
lemma strItems_str (entry : Dict String String) :
    strItems (ClientText.str.fields entry) = entry.items := by
  have hkeys : (stringKeys (ClientText.str.fields entry)).items
      = entry.items.map fun p => (p.1, .str p.2) := by
    rw [stringKeys, Dict.items_ofPairs]
    · rw [ClientText.fields, List.map_map]
      rfl
    · rw [ClientText.fields, List.map_map, List.map_map]
      exact entry.nodup
  rw [strItems, hkeys, List.map_map]
  exact List.map_id _

lemma dumps_textValues (entry : Dict String String) :
    dumpsDefaultStr (textValues entry) = StandardLibrary.dumps (textJson entry.items) := by
  have hitems : (textValues entry).items = entry.items.map fun p => (p.1, .str p.2) := by
    rw [textValues, Dict.items_ofPairs]
    rw [List.map_map]
    exact entry.nodup
  rw [dumpsDefaultStr, hitems, List.map_map]
  rfl

omit [StandardLibrary] in
/-- For a client that does not decode, the longest key is lost. -/
lemma not_perm_strItems {entry : Dict String String} (h : entry.items ≠ []) :
    ¬ (strItems (ClientText.bytes.fields entry)).Perm entry.items := by
  intro hperm
  have hkeys : ∀ k, k ∈ entry.items.map Prod.fst →
      (ClientText.bytes.give k).toStr ∈ entry.items.map Prod.fst := by
    intro k hk
    refine (hperm.map Prod.fst).mem_iff.mp ?_
    rw [strItems, List.map_map]
    show _ ∈ (stringKeys _).items.map Prod.fst
    rw [stringKeys, Dict.mem_keys_ofPairs, ClientText.fields, List.map_map, List.map_map]
    obtain ⟨p, hp, rfl⟩ := List.mem_map.mp hk
    exact List.mem_map.mpr ⟨p, hp, rfl⟩
  have hnonempty : (entry.items.map Prod.fst).toFinset.Nonempty := by
    obtain ⟨p, ps, hp⟩ := List.exists_cons_of_ne_nil h
    exact ⟨p.1, by simp [hp]⟩
  obtain ⟨k, hk, hmax⟩ := Finset.exists_max_image _ (fun k : String => k.toList.length) hnonempty
  rw [List.mem_toFinset] at hk
  have hlong := hmax _ (List.mem_toFinset.mpr (hkeys k hk))
  have := length_lt_toStr k
  omega

end Payloads

/-! ## What a handling writes -/

section Writing

variable [StandardLibrary] (cfg : Config)

/-- The dead letters that a job can write. -/
def Writes (job : Job) (letter : DlqFields) : Prop :=
  ∃ s tr q name maxlen, Run (job.start cfg s) tr q ∧ q.command? = some (.xadd name letter maxlen)

/-- Its payload is that of the only one that the job can write. -/
lemma Writes.payload_eq {job : Job} {letter : DlqFields} {payload : String} {P : Command → Prop}
    (h : Writes cfg job letter) (hjob : (job.start cfg).SendsOnly P)
    (hP : ∀ name fields maxlen, P (.xadd name fields maxlen) → fields.payload = payload) :
    letter.payload = payload := by
  obtain ⟨s, tr, q, name, maxlen, hrun, hwaits⟩ := h
  refine hP name letter maxlen (hjob.run hrun _ (List.mem_append_right _ ?_))
  rw [hwaits]
  exact List.mem_singleton_self _

omit [StandardLibrary] in
lemma IsDisposal.payload {messageId : EntryId} {payload name : String} {fields : DlqFields}
    {maxlen : Option ℕ} (h : IsDisposal cfg messageId payload (.xadd name fields maxlen)) :
    fields.payload = payload := by
  cases h
  rfl

/-- A valid entry is handled alike, whatever the client. -/
lemma handleMessage_eq {rawPayload rawPayload' : Fields}
    (hnormal : normalize rawPayload = normalize rawPayload')
    (hvalid : envelopeClass rawPayload = .valid) (messageId : EntryId) :
    handleMessage cfg messageId rawPayload = handleMessage cfg messageId rawPayload' := by
  have hid : requestIdOf rawPayload = requestIdOf rawPayload' := by
    rw [requestIdOf, requestIdOf, hnormal]
  have hread : readEnvelope rawPayload = readEnvelope rawPayload' := by
    rw [readEnvelope, readEnvelope, hnormal]
  rcases readEnvelope_cases rawPayload with ⟨-, x, hx⟩ | ⟨e, -, hreason⟩
  · rw [handleMessage, handleMessage, hid, handleEntry, handleEntry, ← hread, hx]
  · rw [hvalid] at hreason
    cases hreason

end Writing

/-! ## The three ways into the dead letter queue -/

/-- By `_handle_message`, which rejects an invalid envelope and gives up on a failing message; or
past the delivery limit. -/
inductive DeadLetterWay
  | message
  | deliveryLimit (deliveries : ℕ)
  deriving DecidableEq

/-- The job that goes this way. -/
def DeadLetterWay.job (messageId : EntryId) (fields : Fields) : DeadLetterWay → Job
  | .message => .handleMessage messageId fields
  | .deliveryLimit deliveries => .deadLetterReclaimed messageId fields deliveries

section Readable

variable [StandardLibrary] (cfg : Config) (messageId : EntryId)

/-- The dead letters of an entry can be read back, and are those that a decoding client leads
to. -/
def Readable (way : DeadLetterWay) (client : ClientText) (entry : Dict String String) : Prop :=
  ∀ letter, (Writes cfg (way.job messageId (client.fields entry)) letter →
      ReadsBack letter.payload entry)
    ∧ (Writes cfg (way.job messageId (client.fields entry)) letter
        ↔ Writes cfg (way.job messageId (ClientText.str.fields entry)) letter)

lemma envelopeClass_fields (client : ClientText) (entry : Dict String String) :
    envelopeClass (client.fields entry) = envelopeClass (ClientText.str.fields entry) := by
  rw [envelopeClass, envelopeClass, normalize_fields, normalize_fields]

/-- What has the payload of the entry reads back. -/
lemma readsBack_of_eq {entry : Dict String String} (h : LoadsDumps (textJson entry.items))
    {payload : String} (hpayload : payload = StandardLibrary.dumps (textJson entry.items)) :
    ReadsBack payload entry :=
  ⟨entry.items, by rw [hpayload]; exact h, .refl _⟩

/-- A valid entry that is given up on. -/
lemma readable_valid {client : ClientText} {entry : Dict String String}
    (hentry : LoadsDumps (textJson entry.items))
    (hvalid : envelopeClass (client.fields entry) = .valid) :
    Readable cfg messageId .message client entry := by
  have hsame : handleMessage cfg messageId (client.fields entry)
      = handleMessage cfg messageId (ClientText.str.fields entry) := by
    refine handleMessage_eq cfg ?_ hvalid messageId
    rw [normalize_fields, normalize_fields]
  obtain ⟨x, hread⟩ : ∃ x, readEnvelope (client.fields entry) = .ok x := by
    rcases readEnvelope_cases (client.fields entry) with ⟨-, x, hx⟩ | ⟨e, -, hreason⟩
    · exact ⟨x, hx⟩
    · rw [hvalid] at hreason
      cases hreason
  obtain ⟨normal, action, payload⟩ := x
  have hnormal : normal = entry := by
    rw [readEnvelope, normalize_fields] at hread
    change (parseEnvelope entry >>= _ : Except PyException _) = _ at hread
    cases hparse : parseEnvelope entry with
    | error e =>
        rw [hparse] at hread
        cases hread
    | ok y =>
        rw [hparse] at hread
        injection hread with hread
        exact (congrArg Prod.fst hread).symm
  subst hnormal
  intro letter
  refine ⟨fun hwrites => readsBack_of_eq hentry ?_, ?_⟩
  · rw [← dumps_textValues]
    refine hwrites.payload_eq cfg (handleMessage_sends cfg messageId action payload hread) ?_
    intro name fields maxlen h
    cases h with
    | disposal c h => exact h.payload cfg
  · show (∃ s tr q name maxlen, Run (handleMessage cfg messageId (client.fields normal) s) tr q ∧ _)
      ↔ Writes cfg _ letter
    rw [hsame]
    rfl

/-- Anything else, as the client gave it. -/
lemma writes_given {way : DeadLetterWay} {fields : Fields}
    (hway : way = .message → envelopeClass fields ≠ .valid) {letter : DlqFields}
    (h : Writes cfg (way.job messageId fields) letter) :
    letter.payload = StandardLibrary.dumps (textJson (strItems fields)) := by
  rw [← dumps_stringKeys]
  cases way with
  | message =>
      rcases readEnvelope_cases fields with ⟨hvalid, -⟩ | ⟨e, hread, -⟩
      · exact absurd hvalid (hway rfl)
      · exact h.payload_eq cfg (handleMessage_sends_invalid cfg messageId hread)
          fun _ _ _ => IsDisposal.payload cfg
  | deliveryLimit deliveries =>
      exact h.payload_eq cfg (deadLetterReclaimed_sends cfg _ messageId fields deliveries)
        fun _ _ _ => IsDisposal.payload cfg

/-- It is written at once. -/
lemma exists_writes (way : DeadLetterWay) {fields : Fields}
    (hway : way = .message → envelopeClass fields ≠ .valid) :
    ∃ letter, Writes cfg (way.job messageId fields) letter := by
  let s := Self.init cfg 0
  cases way with
  | message =>
      rcases readEnvelope_cases fields with ⟨hvalid, -⟩ | ⟨e, hread, -⟩
      · exact absurd hvalid (hway rfl)
      · refine ⟨⟨messageId, dumpsDefaultStr (stringKeys fields),
          some ("Invalid message: " ++ rejectReason e), cfg.groupName⟩, s, [],
          handleMessage cfg messageId fields s, dlqName cfg.streamName, cfg.dlqMaxlen, .nil _, ?_⟩
        rw [handleMessage, handleEntry, hread]
        rfl
  | deliveryLimit deliveries => exact ⟨_, s, [], _, _, _, .nil _, rfl⟩

/-- **When a dead letter can be read back.**  It can, and does not depend on the client, if and
only if the client decodes its answers, or the entry had a valid envelope and was given up on (or
the entry has no fields at all).  What a client that does not decode gives is written with the
literals of its bytes where the envelope was not read. -/
theorem dead_letter_readable_iff (way : DeadLetterWay) (client : ClientText)
    (entry : Dict String String) (hentry : LoadsDumps (textJson entry.items))
    (hstr : LoadsDumps (textJson (strItems (client.fields entry)))) :
    Readable cfg messageId way client entry
      ↔ client = .str ∨ (way = .message ∧ envelopeClass (client.fields entry) = .valid)
        ∨ entry.items = [] := by
  by_cases hvalid : way = .message ∧ envelopeClass (client.fields entry) = .valid
  · obtain ⟨rfl, hclass⟩ := hvalid
    exact iff_of_true (readable_valid cfg messageId hentry hclass) (.inr (.inl ⟨rfl, hclass⟩))
  · have hway : way = .message → envelopeClass (client.fields entry) ≠ .valid :=
      fun hway hclass => hvalid ⟨hway, hclass⟩
    have hgiven : client.fields entry = ClientText.str.fields entry →
        Readable cfg messageId way client entry := by
      intro hsame letter
      rw [hsame] at hway ⊢
      refine ⟨fun hwrites => readsBack_of_eq hentry ?_, Iff.rfl⟩
      rw [writes_given cfg messageId hway hwrites, strItems_str]
    constructor
    · intro hreadable
      by_contra hnot
      simp only [not_or] at hnot
      obtain ⟨hclient, -, hfields⟩ := hnot
      have hbytes : client = .bytes := by
        cases client with
        | str => exact absurd rfl hclient
        | bytes => rfl
      subst hbytes
      obtain ⟨letter, hwrites⟩ := exists_writes cfg messageId way hway
      obtain ⟨items, hloads, hperm⟩ := (hreadable letter).1 hwrites
      rw [writes_given cfg messageId hway hwrites, hstr] at hloads
      have hitems := textJson_injective (Except.ok.inj hloads)
      subst hitems
      exact not_perm_strItems hfields hperm
    · rintro (rfl | h | hfields)
      · exact hgiven rfl
      · exact absurd h hvalid
      · refine hgiven (Dict.ext ?_)
        show entry.items.map _ = entry.items.map _
        rw [hfields]
        rfl

end Readable

/-- An entry without `data`. -/
def bareEntry : Dict String String := Dict.ofPairs [("action", "ping")]

/-- `json.loads` on what is written of it. -/
@[reducible] def bareLibrary : StandardLibrary :=
  readingLibrary [textJson [("action", "ping")], textJson [("b'action'", "b'ping'")]]

/-- A client that decodes leads to a dead letter that can be read back. -/
theorem dead_letter_readable_bare :
    @Readable bareLibrary soloConfig ⟨1, 0⟩ .message .str bareEntry := by
  let _ : StandardLibrary := bareLibrary
  have hentry : LoadsDumps (textJson bareEntry.items) := by
    with_unfolding_all rfl
  refine (dead_letter_readable_iff soloConfig ⟨1, 0⟩ .message .str bareEntry hentry ?_).mpr
    (.inl rfl)
  rw [strItems_str]
  exact hentry

/-- A client that does not decode leads to a dead letter with the literals of the bytes. -/
theorem dead_letter_garbled : ∃ letter,
    @Writes bareLibrary soloConfig
        (DeadLetterWay.message.job ⟨1, 0⟩ (ClientText.bytes.fields bareEntry)) letter
      ∧ bareLibrary.loads letter.payload = .ok (textJson [("b'action'", "b'ping'")])
      ∧ ¬ @ReadsBack bareLibrary letter.payload bareEntry := by
  let _ : StandardLibrary := bareLibrary
  have hpayload : dumpsDefaultStr (stringKeys (ClientText.bytes.fields bareEntry))
      = "\x7b\"b'action'\": \"b'ping'\"\x7d" := by
    decide +kernel
  have hloads : bareLibrary.loads "\x7b\"b'action'\": \"b'ping'\"\x7d"
      = .ok (textJson [("b'action'", "b'ping'")]) := by
    with_unfolding_all rfl
  have hinvalid : envelopeClass (ClientText.bytes.fields bareEntry) ≠ .valid := by
    rw [envelopeClass_fields]
    decide +kernel
  obtain ⟨letter, hwrites⟩ := exists_writes soloConfig ⟨1, 0⟩ .message fun _ => hinvalid
  have hletter := writes_given soloConfig ⟨1, 0⟩ (fun _ => hinvalid) hwrites
  rw [← dumps_stringKeys, hpayload] at hletter
  refine ⟨letter, hwrites, by rw [hletter]; exact hloads, ?_⟩
  rintro ⟨items, hitems, hperm⟩
  rw [hletter, hloads] at hitems
  obtain rfl := textJson_injective (Except.ok.inj hitems)
  have hmem := hperm.mem_iff.mp (List.mem_singleton_self _)
  revert hmem
  decide +kernel

end Atsig
