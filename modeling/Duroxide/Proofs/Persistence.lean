import Duroxide.Model.Persistence

/-! # Stored events and work items are read back

What is written fits on one object: no field of a kind has the name of its tag or of a field of the event.
So every object with the written members is read as the event, also one of an older crate without the
fields that were added since, and one of a newer crate with more members.
-/

namespace Duroxide

open Lib.Json

open Serde

namespace EventKind

/-- The fields that an object of a kind may lack. -/
def omittable : EventKind → List String
  | .orchestrationStarted _ _ _ parentInstance parentId carryForwardEvents initialCustomStatus =>
      (if parentInstance.isNone then ["parent_instance"] else []) ++ (if parentId.isNone then ["parent_id"] else []) ++
        (if carryForwardEvents.isNone then ["carry_forward_events"] else []) ++
        if initialCustomStatus.isNone then ["initial_custom_status"] else []
  | .activityScheduled _ _ sessionId tag =>
      (if sessionId.isNone then ["session_id"] else []) ++ if tag.isNone then ["tag"] else []
  | .customStatusUpdated status => if status.isNone then ["status"] else []
  | .keyValueSet _ _ lastUpdatedAtMs => if lastUpdatedAtMs = 0 then ["last_updated_at_ms"] else []
  | _ => []

theorem omits_of_omittable {kind : EventKind} {name : String} (listed : name ∈ kind.omittable) :
    name ∈ kind.struct.fields.names ∧ kind.struct.fields.Omits kind.struct.value name := by
  cases kind with
  | orchestrationStarted =>
    simp only [omittable, List.mem_append, List.mem_ite_nil_right, List.mem_singleton, Option.isNone_iff_eq_none] at listed
    rcases listed with ((⟨rfl, rfl⟩ | ⟨rfl, rfl⟩) | ⟨rfl, rfl⟩) | ⟨rfl, rfl⟩ <;>
      simp [struct, startedFields, Fields.and, Field.alone, text, optionalText, optionalU64, skippedText, Codec.required,
        Codec.optional, Codec.skipped, Codec.withDefault]
  | activityScheduled =>
    simp only [omittable, List.mem_append, List.mem_ite_nil_right, List.mem_singleton, Option.isNone_iff_eq_none] at listed
    rcases listed with ⟨rfl, rfl⟩ | ⟨rfl, rfl⟩ <;>
      simp [struct, activityScheduledFields, Fields.and, Field.alone, text, skippedText, Codec.required, Codec.optional,
        Codec.skipped, Codec.withDefault]
  | customStatusUpdated =>
    simp only [omittable, List.mem_ite_nil_right, List.mem_singleton, Option.isNone_iff_eq_none] at listed
    obtain ⟨rfl, rfl⟩ := listed
    exact ⟨List.mem_singleton_self _, rfl⟩
  | keyValueSet =>
    simp only [omittable, List.mem_ite_nil_right, List.mem_singleton] at listed
    obtain ⟨rfl, rfl⟩ := listed
    simp [struct, keyValueSetFields, Fields.and, Field.alone, text, Codec.required, Codec.withDefault]
  | _ => cases listed

end EventKind

namespace Event

variable {event : Event} {members : Members}

theorem type_not_mem_names (kind : EventKind) : "type" ∉ kind.struct.fields.names := by
  cases kind <;> exact of_decide_eq_true rfl

theorem ownFields_disjoint (kind : EventKind) : ∀ name ∈ kind.struct.fields.names, name ∉ ownFields.names := by
  cases kind <;> exact of_decide_eq_true rfl

theorem type_not_mem_ownFields : "type" ∉ ownFields.names := by decide

/-- The fields that an object of this event may lack: they read the same when they are absent. -/
def Omits (event : Event) (name : String) : Prop :=
  name ∈ ownFields.names ∧ ownFields.Omits event.own name ∨
    name ∈ event.kind.struct.fields.names ∧ event.kind.struct.fields.Omits event.kind.struct.value name

def names (event : Event) : List String := ownFields.names ++ "type" :: event.kind.struct.fields.names

theorem lookup_members_of_own {name : String} (own : name ∈ ownFields.names) :
    event.members.lookup name = (ownFields.write event.own).lookup name := by
  have notType : (name == "type") = false := by
    rw [beq_eq_false_iff_ne]
    rintro rfl
    exact type_not_mem_ownFields own
  have foreign : event.kind.struct.members.lookup name = none :=
    event.kind.struct.fields.lookup_write_of_not_mem _ fun listed => ownFields_disjoint event.kind name listed own
  rw [members, List.lookup_append, Variants.writeInternal, List.lookup_cons, notType]
  exact (congrArg _ foreign).trans Option.or_none

theorem lookup_members_of_kind {name : String} (inside : name ∈ event.kind.struct.fields.names) :
    event.members.lookup name = event.kind.struct.members.lookup name := by
  have notType : (name == "type") = false := by
    rw [beq_eq_false_iff_ne]
    rintro rfl
    exact type_not_mem_names event.kind inside
  have foreign : (ownFields.write event.own).lookup name = none :=
    ownFields.lookup_write_of_not_mem _ (ownFields_disjoint event.kind name inside)
  rw [members, List.lookup_append, foreign, Option.none_or, Variants.writeInternal, List.lookup_cons, notType]
  rfl

theorem lookup_members_type : event.members.lookup "type" = some (.string event.kind.tag) := by
  have foreign : (ownFields.write event.own).lookup "type" = none :=
    ownFields.lookup_write_of_not_mem _ type_not_mem_ownFields
  rw [members, List.lookup_append, foreign, Option.none_or]
  exact List.lookup_cons_self

/-- Where a name occurs once, the members of that name are the one that is looked up. -/
theorem filter_eq_of_lookup {name : String} {document : Value} (distinct : (members.map (·.1)).Nodup)
    (found : members.lookup name = some document) : members.filter (·.1 == name) = [(name, document)] := by
  have listed : (name, document) ∈ members.filter (·.1 == name) := by
    obtain ⟨before, after, rfl, _⟩ := List.lookup_eq_some_iff.mp found
    simp
  obtain ⟨only, alone⟩ := List.length_eq_one_iff.mp
    (Nat.le_antisymm (once_of_nodup distinct name) (List.length_pos_of_mem listed))
  rw [alone] at listed ⊢
  rw [List.mem_singleton.mp listed]

/-- An object with distinct names is read as an event when it has each known member as the event is written, or lacks it
where that reads the same. -/
theorem decode_of_lookups (fits : event.Fits) (distinct : (members.map (·.1)).Nodup)
    (entries : ∀ name ∈ event.names, members.lookup name = event.members.lookup name ∨
      members.lookup name = none ∧ event.Omits name) :
    decode (.object members) = some event := by
  have own : ownFields.decode members = some event.own := by
    refine ownFields.decode_of_agrees fits.1 ⟨fun name _ => once_of_nodup distinct name, fun name listed => ?_⟩
    rw [← lookup_members_of_own listed]
    refine (entries name (List.mem_append_left _ listed)).imp_right fun ⟨absent, omits⟩ => ⟨absent, ?_⟩
    exact (omits.resolve_right fun inside => ownFields_disjoint event.kind name inside.1 listed).2
  have agrees : event.kind.struct.Agrees members := by
    refine ⟨fun name _ => once_of_nodup distinct name, fun name listed => ?_⟩
    rw [← Struct.members, ← lookup_members_of_kind listed]
    have known : name ∈ event.names := List.mem_append_right _ (List.mem_cons_of_mem _ listed)
    refine (entries name known).imp_right fun ⟨absent, omits⟩ => ⟨absent, ?_⟩
    exact (omits.resolve_left fun inside => ownFields_disjoint event.kind name listed inside.1).2
  have tagged : members.lookup "type" = some (.string event.kind.tag) := by
    have known : "type" ∈ event.names := List.mem_append_right _ List.mem_cons_self
    rcases entries "type" known with same | ⟨_, ⟨own, _⟩ | ⟨inside, _⟩⟩
    · exact same.trans lookup_members_type
    · exact absurd own type_not_mem_ownFields
    · exact absurd inside (type_not_mem_names event.kind)
  -- What is left for the kind has its tag and its fields.
  have kind : EventKind.variants.readInternal "type" (members.filter fun member => member.1 ∉ ownFields.names) =
      some event.kind := by
    apply Variants.readInternal_of_agrees
    · rw [List.filter_filter]
      refine Eq.trans (List.filter_congr fun member _ => ?_) (filter_eq_of_lookup distinct tagged)
      rcases same : member.1 == "type" with _ | _
      · rfl
      · rw [eq_of_beq same]
        rfl
    · exact type_not_mem_names event.kind
    · exact fits.2
    · exact agrees.filter (fun name => name ∉ ownFields.names) fun name listed =>
        decide_eq_true (ownFields_disjoint event.kind name listed)
  simp only [decode, own, kind, Option.bind_eq_bind, Option.bind_some]
  rfl

theorem names_distinct (event : Event) : (event.members.map (·.1)).Nodup := by
  rw [members, List.map_append]
  refine List.nodup_append'.mpr ⟨ownFields.write_nodup _, ?_, ?_⟩
  · refine List.nodup_cons.mpr ⟨fun listed => ?_, event.kind.struct.fields.write_nodup _⟩
    exact type_not_mem_names event.kind ((event.kind.struct.fields.written _).mem listed)
  · intro name own other
    have listed := (ownFields.written _).mem own
    rcases List.mem_cons.mp other with rfl | inside
    · exact type_not_mem_ownFields listed
    · exact ownFields_disjoint event.kind name ((event.kind.struct.fields.written _).mem inside) listed

theorem fits_of_decode {document : Value} (decoded : decode document = some event) : event.Fits := by
  cases document with
  | object members =>
    obtain ⟨own, first, decoded⟩ := Option.bind_eq_some_iff.mp decoded
    obtain ⟨kind, second, same⟩ := Option.bind_eq_some_iff.mp decoded
    cases same
    exact ⟨ownFields.fits_of_decode first, EventKind.variants.fits_of_readInternal second⟩
  | _ => cases decoded

/-- The fields that an object of an event may lack. -/
def omittable (event : Event) : List String :=
  (if event.sourceEventId.isNone then ["source_event_id"] else []) ++ event.kind.omittable

theorem omits_of_omittable {name : String} (listed : name ∈ event.omittable) : event.Omits name := by
  rcases List.mem_append.mp listed with own | inside
  · obtain ⟨none, same⟩ := List.mem_ite_nil_right.mp own
    obtain rfl := List.mem_singleton.mp same
    refine .inl ⟨by decide, .inr ⟨by decide, .inl ⟨by decide, ?_⟩⟩⟩
    exact congrArg some (Option.isNone_iff_eq_none.mp none).symm
  · exact .inr (EventKind.omits_of_omittable inside)

theorem decode_encode (fits : event.Fits) : decode event.encode = some event :=
  decode_of_lookups fits event.names_distinct fun _ _ => .inl rfl

end Event

/-! ## Work items -/

namespace WorkItem

variable {item : WorkItem} {members : Members}

/-- The fields that an object of a work item may lack. -/
def omittable : WorkItem → List String
  | .startOrchestration _ _ _ version parentInstance parentId _ =>
      (if version.isNone then ["version"] else []) ++ (if parentInstance.isNone then ["parent_instance"] else []) ++
        if parentId.isNone then ["parent_id"] else []
  | .activityExecute _ _ _ _ _ sessionId tag =>
      (if sessionId.isNone then ["session_id"] else []) ++ if tag.isNone then ["tag"] else []
  | .continueAsNew _ _ _ version carryForwardEvents initialCustomStatus =>
      (if version.isNone then ["version"] else []) ++
        (if carryForwardEvents = [] then ["carry_forward_events"] else []) ++
        if initialCustomStatus.isNone then ["initial_custom_status"] else []
  | _ => []

theorem omits_of_omittable {name : String} (listed : name ∈ item.omittable) :
    item.struct.fields.Omits item.struct.value name := by
  cases item with
  | startOrchestration =>
    simp only [omittable, List.mem_append, List.mem_ite_nil_right, List.mem_singleton, Option.isNone_iff_eq_none] at listed
    rcases listed with (⟨rfl, rfl⟩ | ⟨rfl, rfl⟩) | ⟨rfl, rfl⟩ <;>
      simp [struct, startOrchestrationFields, Fields.and, Field.alone, text, u64, optionalText, optionalU64, Codec.required,
        Codec.optional, Codec.withDefault]
  | activityExecute =>
    simp only [omittable, List.mem_append, List.mem_ite_nil_right, List.mem_singleton, Option.isNone_iff_eq_none] at listed
    rcases listed with ⟨rfl, rfl⟩ | ⟨rfl, rfl⟩ <;>
      simp [struct, activityExecuteFields, Fields.and, Field.alone, text, u64, skippedText, Codec.required, Codec.optional,
        Codec.skipped, Codec.withDefault]
  | continueAsNew =>
    simp only [omittable, List.mem_append, List.mem_ite_nil_right, List.mem_singleton, Option.isNone_iff_eq_none] at listed
    rcases listed with (⟨rfl, rfl⟩ | ⟨rfl, rfl⟩) | ⟨rfl, rfl⟩ <;>
      simp [struct, continueAsNewFields, Fields.and, Field.alone, text, optionalText, skippedText, Codec.required,
        Codec.optional, Codec.skipped, Codec.withDefault]
  | _ => cases listed

end WorkItem

/-! ## The rows of an execution -/

namespace EventKind

/-- The `event_type` column is the tag of the stored event. -/
theorem eventType_eq_tag (kind : EventKind) : kind.eventType = kind.tag := by cases kind <;> rfl

end EventKind

namespace HistoryRecord

theorem read_map_ofEvent {events : List Event} (fits : ∀ event ∈ events, event.Fits) :
    read (events.map ofEvent) = some events := by
  induction events with
  | nil => rfl
  | cons event rest ih =>
    obtain ⟨first, others⟩ := List.forall_mem_cons.mp fits
    have decoded : Event.decode (ofEvent event).eventData = some event := Event.decode_encode first
    simp only [List.map_cons, read, decoded, ih others, Option.bind_eq_bind, Option.bind_some]

/-- An insert keeps the rows in event id order; it fails when the id is taken. -/
theorem insert_spec (event : Event) {events : List Event} (ordered : events.Pairwise (·.eventId < ·.eventId)) :
    match insert (ofEvent event) (events.map ofEvent) with
    | some records => ∃ after : List Event, records = after.map ofEvent ∧ after.Perm (event :: events) ∧
        after.Pairwise (·.eventId < ·.eventId)
    | none => event.eventId ∈ events.map (·.eventId) := by
  induction events with
  | nil => exact ⟨[event], rfl, List.Perm.refl _, List.pairwise_singleton _ _⟩
  | cons first rest ih =>
    obtain ⟨above, ordered⟩ := List.pairwise_cons.mp ordered
    rw [List.map_cons, insert]
    rcases lt_trichotomy event.eventId first.eventId with below | same | beyond
    · rw [if_pos (show (ofEvent event).eventId < (ofEvent first).eventId from below)]
      refine ⟨event :: first :: rest, rfl, List.Perm.refl _, ?_⟩
      have all : ∀ other ∈ first :: rest, event.eventId < other.eventId :=
        List.forall_mem_cons.mpr ⟨below, fun other listed => below.trans (above other listed)⟩
      exact List.pairwise_cons.mpr ⟨all, List.pairwise_cons.mpr ⟨above, ordered⟩⟩
    · rw [if_neg (show ¬ (ofEvent event).eventId < (ofEvent first).eventId from same.not_lt),
        if_pos (show (ofEvent event).eventId = (ofEvent first).eventId from same)]
      exact same ▸ List.mem_cons_self
    · rw [if_neg (show ¬ (ofEvent event).eventId < (ofEvent first).eventId from beyond.not_gt),
        if_neg (show ¬ (ofEvent event).eventId = (ofEvent first).eventId from beyond.ne')]
      have later := ih ordered
      revert later
      cases insert (ofEvent event) (rest.map ofEvent) with
      | none => exact fun taken => List.mem_cons_of_mem _ taken
      | some records =>
        rintro ⟨after, rfl, perm, sorted⟩
        refine ⟨first :: after, rfl, (perm.cons first).trans (List.Perm.swap ..), List.pairwise_cons.mpr ⟨?_, sorted⟩⟩
        intro other listed
        rcases List.mem_cons.mp (perm.mem_iff.mp listed) with rfl | old
        · exact beyond
        · exact above other old

theorem foldlM_insert_spec (batch : List Event) {events : List Event} (ordered : events.Pairwise (·.eventId < ·.eventId)) :
    match batch.foldlM (fun records event => insert (ofEvent event) records) (events.map ofEvent) with
    | some records => ∃ after : List Event, records = after.map ofEvent ∧ after.Perm (events ++ batch) ∧
        after.Pairwise (·.eventId < ·.eventId)
    | none => ¬ ((events ++ batch).map (·.eventId)).Nodup := by
  induction batch generalizing events with
  | nil => exact ⟨events, rfl, by rw [List.append_nil], ordered⟩
  | cons event rest ih =>
    have inserted := insert_spec event ordered
    rw [List.foldlM_cons]
    revert inserted
    cases insert (ofEvent event) (events.map ofEvent) with
    | none =>
      intro taken distinct
      rw [List.map_append, List.nodup_append'] at distinct
      exact distinct.2.2 taken List.mem_cons_self
    | some records =>
      rintro ⟨after, rfl, perm, sorted⟩
      have moved : (after ++ rest).Perm (events ++ event :: rest) := (perm.append_right rest).trans List.perm_middle.symm
      have later := ih sorted
      rw [Option.bind_eq_bind, Option.bind_some]
      revert later
      cases rest.foldlM (fun records event => insert (ofEvent event) records) (after.map ofEvent) with
      | none => exact fun repeated distinct => repeated ((moved.map _).nodup_iff.mpr distinct)
      | some records => exact fun ⟨last, same, perm, sorted⟩ => ⟨last, same, perm.trans moved, sorted⟩

/-- The rows of some events in event id order. -/
def Holds (records : List HistoryRecord) (events : List Event) : Prop :=
  records = events.map ofEvent ∧ events.Pairwise (·.eventId < ·.eventId)

/-- An append takes all events of a batch, or none of them for a missing id or for one that is taken. -/
theorem append_spec {records : List HistoryRecord} {events : List Event} (holds : Holds records events) (batch : List Event) :
    match append records batch with
    | some records => ∃ after, Holds records after ∧ after.Perm (events ++ batch)
    | none => (∃ event ∈ batch, event.eventId = 0) ∨ ¬ ((events ++ batch).map (·.eventId)).Nodup := by
  obtain ⟨rfl, ordered⟩ := holds
  unfold append
  split_ifs with missing
  · obtain ⟨event, listed, zero⟩ := List.any_eq_true.mp missing
    exact .inl ⟨event, listed, eq_of_beq zero⟩
  · have appended := foldlM_insert_spec batch ordered
    revert appended
    cases batch.foldlM (fun records event => insert (ofEvent event) records) (events.map ofEvent) with
    | none => exact .inr
    | some records => exact fun ⟨after, same, perm, sorted⟩ => ⟨after, ⟨same, sorted⟩, perm⟩

/-- The rows after some appends, of which each was taken or rolled back. -/
def run (batches : List (List Event)) : List HistoryRecord :=
  batches.foldl (fun records batch => (append records batch).getD records) []

theorem holds_run {batches : List (List Event)} (fits : ∀ batch ∈ batches, ∀ event ∈ batch, event.Fits) :
    ∃ events, Holds (run batches) events ∧ ∀ event ∈ events, event.Fits := by
  have later : ∀ (records : List HistoryRecord) (events : List Event), Holds records events →
      (∀ event ∈ events, event.Fits) → ∃ after, Holds (batches.foldl (fun records batch => (append records batch).getD records) records) after ∧
        ∀ event ∈ after, event.Fits := by
    induction batches with
    | nil => exact fun records events holds inside => ⟨events, holds, inside⟩
    | cons batch rest ih =>
      intro records events holds inside
      obtain ⟨first, others⟩ := List.forall_mem_cons.mp fits
      rw [List.foldl_cons]
      have appended := append_spec holds batch
      revert appended
      cases append records batch with
      | none => exact fun _ => ih others records events holds inside
      | some taken =>
        rintro ⟨after, holds, perm⟩
        refine ih others taken after holds fun event listed => ?_
        exact (List.mem_append.mp (perm.mem_iff.mp listed)).elim (inside event) (first event)
  exact later [] [] ⟨rfl, List.Pairwise.nil⟩ (List.forall_mem_nil _)

theorem decodes_iff (describe : Nat → String → String) (error : Value → String) (position : Nat)
    (records : List HistoryRecord) :
    (ExecutionHistory.decode describe position (records.map (row error))).toOption = read records := by
  induction records generalizing position with
  | nil => rfl
  | cons record rest ih =>
    rw [List.map_cons, ExecutionHistory.decode, read, row]
    cases Event.decode record.eventData with
    | none => rfl
    | some event =>
      have later := ih (position + 1)
      revert later
      dsimp only
      cases ExecutionHistory.decode describe (position + 1) (rest.map (row error)) with
      | error message => exact fun later => by rw [← later]; rfl
      | ok events => exact fun later => by rw [← later]; rfl

theorem insert_row {event : Event} (fits : event.Fits) (error : Value → String) (records : List HistoryRecord) :
    (insert (ofEvent event) records).map (·.map (row error)) =
      ExecutionHistory.insertRow ⟨event.eventId, .ok event⟩ (records.map (row error)) := by
  have same : row error (ofEvent event) = ⟨event.eventId, .ok event⟩ := by
    simp only [row, ofEvent, Event.decode_encode fits]
  induction records with
  | nil => rw [insert, Option.map_some, List.map_singleton, same]; rfl
  | cons first rest ih =>
    rw [insert, List.map_cons, ExecutionHistory.insertRow, ← ih]
    have ids : (ofEvent event).eventId = event.eventId := rfl
    have firstIds : (row error first).eventId = first.eventId := rfl
    dsimp only
    rw [ids, firstIds]
    split_ifs
    · rw [Option.map_some, List.map_cons, List.map_cons, same]
    · rfl
    · cases insert (ofEvent event) rest <;> rfl

end HistoryRecord

end Duroxide
