import Kaleidoscope.Aperture.Ingest

/-!
# Whether the transports agree

What a service validates is a request as prost writes it: its resources and nothing else. A posted
body may start with any field.
-/

namespace Kaleidoscope.Aperture

open Aegis Otlp Protobuf Utf8
open Sieve (TenantScoped)

/-- Both transports accept, with the same record for the sink, or neither accepts. -/
def SameVerdict {Resource : SignalType → Type} (http : HttpResponse × Option (SinkRecord Resource))
    (grpc : GrpcResponse × Option (SinkRecord Resource)) : Prop :=
  (http.1 = .ok ↔ grpc.1 = .ok) ∧ (http.1 = .ok → http.2 = grpc.2)

section

variable {Inner : Type} {descriptors : Descriptors Inner} {prost : Prost Inner}
  {Resource : SignalType → Type} {codec : Codec Resource} {signal : SignalType}

/-- Two answers that each hand on the same record when they accept agree when they accept alike. -/
theorem sameVerdict_of_record {Resource : SignalType → Type}
    {http : HttpResponse × Option (SinkRecord Resource)}
    {grpc : GrpcResponse × Option (SinkRecord Resource)} (record : Option (SinkRecord Resource))
    {posted called : Prop}
    (hhttp : ∀ reached, http = (.ok, reached) ↔ posted ∧ reached = record)
    (hgrpc : ∀ reached, grpc = (.ok, reached) ↔ called ∧ reached = record) :
    SameVerdict http grpc ↔ (posted ↔ called) := by
  have hposted : http.1 = .ok ↔ posted :=
    ⟨fun h => ((hhttp http.2).mp (Prod.ext h rfl)).1,
      fun h => congrArg Prod.fst ((hhttp record).mpr ⟨h, rfl⟩)⟩
  have hcalled : grpc.1 = .ok ↔ called :=
    ⟨fun h => ((hgrpc grpc.2).mp (Prod.ext h rfl)).1,
      fun h => congrArg Prod.fst ((hgrpc record).mpr ⟨h, rfl⟩)⟩
  rw [SameVerdict, hposted, hcalled]
  refine ⟨And.left, fun h => ⟨h, fun hp => ?_⟩⟩
  rw [(hhttp record).mpr ⟨hp, rfl⟩, (hgrpc record).mpr ⟨h.mp hp, rfl⟩]

/-- The fields that a request is written as. -/
def writtenFields (codec : Codec Resource) (request : ExportServiceRequest Resource signal) :
    List WireField :=
  request.resources.map fun resource =>
    (RESOURCE_FIELD_NUMBER, .delimited (codec.write signal resource))

theorem encodeToVec_eq (request : ExportServiceRequest Resource signal) :
    codec.encodeToVec request = (writtenFields codec request).flatMap writeField := by
  rw [Codec.encodeToVec, writtenFields, List.flatMap_map]

/-- Every field of a written request is one that can be written. -/
theorem wellFormed_writtenFields (hcodec : codec.RoundTrips descriptors)
    {request : ExportServiceRequest Resource signal} {field : WireField}
    (hmem : field ∈ writtenFields codec request) : field.WellFormed := by
  obtain ⟨resource, -, rfl⟩ := List.mem_map.mp hmem
  exact ⟨Nat.le_refl 1, by simp [RESOURCE_FIELD_NUMBER], (hcodec signal resource).1⟩

/-- The resources of a written request are gathered from its fields. -/
theorem gather_writtenFields (hcodec : codec.RoundTrips descriptors)
    (resources : List (Resource signal)) :
    ∃ fields, gather descriptors.schema (decode descriptors.schema) (.request signal)
        (writtenFields codec ⟨resources⟩) = some fields ∧
      codec.request signal fields = ⟨resources⟩ := by
  induction resources with
  | nil => exact ⟨[], rfl, rfl⟩
  | cons resource resources ih =>
    obtain ⟨fields, hgather, hrequest⟩ := ih
    obtain ⟨inner, hinner, hread⟩ := Option.map_eq_some_iff.mp (hcodec signal resource).2
    refine ⟨(1, .message inner) :: fields, ?_, ?_⟩
    · change ((readKind _ _ _).bind fun _ =>
        (gather _ _ _ (writtenFields codec ⟨resources⟩)).map _) = _
      rw [hgather]
      simp only [readKind, hinner, Option.map_some, Option.bind_some, RESOURCE_FIELD_NUMBER]
    · have hrest := (ExportServiceRequest.mk.injEq _ _).mp hrequest
      simp only [Codec.request, submessages, List.filterMap_cons, RESOURCE_FIELD_NUMBER, if_true,
        List.map_cons, hread] at hrest ⊢
      rw [hrest]

/-- Prost reads a request back as it was. -/
theorem decode_encodeToVec (hcodec : codec.RoundTrips descriptors)
    (request : ExportServiceRequest Resource signal) :
    ∃ fields, decode descriptors.schema (.request signal) (codec.encodeToVec request) =
        some fields ∧ codec.request signal fields = request := by
  obtain ⟨fields, hgather, hrequest⟩ := gather_writtenFields hcodec request.resources
  refine ⟨fields, ?_, hrequest⟩
  rw [decode_eq, encodeToVec_eq,
    parse_flatMap_writeField fun field hmem => wellFormed_writtenFields hcodec hmem]
  exact hgather

/-- A written request starts with its first resource. -/
theorem firstTag_encodeToVec (hcodec : codec.RoundTrips descriptors)
    {request : ExportServiceRequest Resource signal} (h : request.resources ≠ []) :
    firstTagReferencesResourceField prost (codec.encodeToVec request) = .ok () := by
  obtain ⟨resource, resources, hresources⟩ := List.exists_cons_of_ne_nil h
  have hfields : writtenFields codec request =
      (RESOURCE_FIELD_NUMBER, .delimited (codec.write signal resource)) ::
        writtenFields codec ⟨resources⟩ := by
    rw [writtenFields, hresources]
    rfl
  have hwell : WireField.WellFormed
      (RESOURCE_FIELD_NUMBER, .delimited (codec.write signal resource)) :=
    wellFormed_writtenFields hcodec (hfields ▸ List.mem_cons_self)
  rw [firstTagReferencesResourceField, decodeKey, encodeToVec_eq, hfields, List.flatMap_cons,
    readKey_writeField hwell]
  rfl

theorem encodeToVec_of_nil {request : ExportServiceRequest Resource signal}
    (h : request.resources = []) : codec.encodeToVec request = [] := by
  rw [Codec.encodeToVec, h]
  rfl

theorem firstTag_nil : firstTagReferencesResourceField prost [] ≠ .ok () := nofun

/-- A decoded body whose first field is a resource has a resource. -/
theorem submessages_ne_nil {body : Bytes} {fields : Fields}
    (hfirst : firstTagReferencesResourceField prost body = .ok ())
    (hdecode : decode descriptors.schema (.request signal) body = some fields) :
    submessages RESOURCE_FIELD_NUMBER fields ≠ [] := by
  cases body with
  | nil => exact absurd hfirst firstTag_nil
  | cons b body =>
    rw [decode_eq] at hdecode
    obtain ⟨wires, hparse, hgather⟩ := Option.bind_eq_some_iff.mp hdecode
    obtain ⟨⟨number, code, rest⟩, hkey, hbind⟩ := Option.bind_eq_some_iff.mp hparse
    obtain ⟨⟨wire, after⟩, -, hmap⟩ := Option.bind_eq_some_iff.mp hbind
    obtain ⟨later, -, rfl⟩ := Option.map_eq_some_iff.mp hmap
    have hnumber : number = RESOURCE_FIELD_NUMBER := by
      by_contra hne
      rw [firstTagReferencesResourceField, decodeKey, hkey] at hfirst
      simp only [Except.bind, if_pos hne] at hfirst
      cases hfirst
    subst hnumber
    obtain ⟨value, hvalue, hlater⟩ := Option.bind_eq_some_iff.mp hgather
    obtain ⟨others, -, rfl⟩ := Option.map_eq_some_iff.mp hlater
    cases wire with
    | delimited payload =>
      obtain ⟨inner, -, rfl⟩ := Option.map_eq_some_iff.mp hvalue
      exact List.cons_ne_nil _ _
    | _ => cases hvalue

/-- A validator accepts the bodies that start with a resource and decode. -/
theorem validate_eq_ok_iff {body : Bytes} {framing : Framing} {fields : Fields} :
    validate descriptors prost signal body framing = .ok fields ↔
      firstTagReferencesResourceField prost body = .ok () ∧
        decode descriptors.schema (.request signal) body = some fields := by
  by_cases hnil : body = []
  · subst hnil
    rw [validate_nil]
    exact iff_of_false (by simp) fun h => firstTag_nil h.1
  · rw [validate_of_ne_nil hnil, decodeSignal, decodeStrict]
    cases hfirst : firstTagReferencesResourceField prost body with
    | error err => exact iff_of_false (by simp [Except.bind]) (by simp)
    | ok _ =>
      simp only [Except.bind, decodeMessage]
      cases decode descriptors.schema (.request signal) body with
      | none => simp
      | some fields' => simp

/-- An ingest is accepted when the body is within the cap, validates, and its record is taken. -/
theorem ingest_accepted_iff {body : Bytes} {transport : Transport} {tenant : TenantId}
    {cap : Option UInt32} {sink : OtlpSink Resource}
    {reached : Option (SinkRecord Resource)} :
    ingest descriptors prost codec signal body transport tenant cap sink = (.accepted, reached) ↔
      exceeds cap body = false ∧ ∃ fields,
        validate descriptors prost signal body (framingForTransport transport) = .ok fields ∧
        sink (sinkRecord signal ⟨tenant, codec.request signal fields⟩) = .ok () ∧
        reached = some (sinkRecord signal ⟨tenant, codec.request signal fields⟩) := by
  rw [ingest, secondaryBodySizeGuard]
  cases exceeds cap body with
  | true => simp
  | false =>
    cases validate descriptors prost signal body (framingForTransport transport) with
    | error violation => simp
    | ok fields =>
      cases hsink : sink (sinkRecord signal ⟨tenant, codec.request signal fields⟩) with
      | error err => simp [hsink]
      | ok _ => simp [hsink, eq_comm]

theorem map_httpResponse_eq_ok {answer : IngestOutcome × Option (SinkRecord Resource)}
    {reached : Option (SinkRecord Resource)} :
    answer.map httpResponse id = (.ok, reached) ↔ answer = (.accepted, reached) := by
  obtain ⟨outcome, record⟩ := answer
  cases outcome <;> simp [httpResponse]

theorem map_grpcResponse_eq_ok {answer : IngestOutcome × Option (SinkRecord Resource)}
    {reached : Option (SinkRecord Resource)} :
    answer.map grpcResponse id = (.ok, reached) ↔ answer = (.accepted, reached) := by
  obtain ⟨outcome, record⟩ := answer
  cases outcome <;> simp [grpcResponse]

theorem exceeds_eq_false_of_le {cap : Option UInt32} {body : Bytes}
    (h : body.length ≤ httpLimit cap) : exceeds cap body = false := by
  rw [exceeds]
  rw [httpLimit] at h
  cases hcap : activeCap cap with
  | none => rfl
  | some limit =>
    rw [hcap] at h
    exact decide_eq_false (not_lt.mpr h)

variable {body : Bytes} {cap : Option UInt32} {sink : OtlpSink Resource} {tenant : TenantId}
  {reached : Option (SinkRecord Resource)}

/-- A posted body is accepted when it starts with a resource, decodes, and its record is taken. -/
theorem handle_ok_iff (hlimit : body.length ≤ httpLimit cap) :
    handle descriptors prost codec signal cap sink tenant body = (.ok, reached) ↔
      ∃ fields, decode descriptors.schema (.request signal) body = some fields ∧
        firstTagReferencesResourceField prost body = .ok () ∧
        sink (sinkRecord signal ⟨tenant, codec.request signal fields⟩) = .ok () ∧
        reached = some (sinkRecord signal ⟨tenant, codec.request signal fields⟩) := by
  rw [handle, if_neg (not_lt.mpr hlimit), map_httpResponse_eq_ok, ingest_accepted_iff]
  simp only [exceeds_eq_false_of_le hlimit, true_and, validate_eq_ok_iff]
  constructor
  · rintro ⟨fields, ⟨hfirst, hdecode⟩, hsink⟩
    exact ⟨fields, hdecode, hfirst, hsink⟩
  · rintro ⟨fields, hdecode, hfirst, hsink⟩
    exact ⟨fields, ⟨hfirst, hdecode⟩, hsink⟩

/-- A message is accepted when it decodes, has a resource, is within the cap when it is written
again, and its record is taken. -/
theorem call_ok_iff (hcodec : codec.RoundTrips descriptors)
    (hlimit : body.length ≤ grpcLimit cap) :
    call descriptors prost codec signal cap sink tenant body = (.ok, reached) ↔
      ∃ fields, decode descriptors.schema (.request signal) body = some fields ∧
        (submessages RESOURCE_FIELD_NUMBER fields ≠ [] ∧
          exceeds cap (codec.encodeToVec (codec.request signal fields)) = false) ∧
        sink (sinkRecord signal ⟨tenant, codec.request signal fields⟩) = .ok () ∧
        reached = some (sinkRecord signal ⟨tenant, codec.request signal fields⟩) := by
  rw [call, if_neg (not_lt.mpr hlimit), decodeMessage]
  cases decode descriptors.schema (.request signal) body with
  | none => simp
  | some fields =>
    simp only [Option.some.injEq, exists_eq_left', exportRequest, map_grpcResponse_eq_ok,
      ingest_accepted_iff, validate_eq_ok_iff]
    obtain ⟨again, hagain, hrequest⟩ :=
      decode_encodeToVec hcodec (codec.request signal fields)
    constructor
    · rintro ⟨hcap, fields', ⟨hfirst, hdecode⟩, hsink⟩
      obtain rfl : again = fields' := Option.some.inj (hagain.symm.trans hdecode)
      rw [hrequest] at hsink
      refine ⟨⟨fun hnil => ?_, hcap⟩, hsink⟩
      rw [encodeToVec_of_nil (by rw [Codec.request, hnil]; rfl)] at hfirst
      exact firstTag_nil hfirst
    · rintro ⟨⟨hne, hcap⟩, hsink⟩
      refine ⟨hcap, again, ⟨firstTag_encodeToVec hcodec ?_, hagain⟩, ?_⟩
      · simpa [Codec.request] using hne
      · rwa [hrequest]

/-- On a body that does not decode the transports agree: neither accepts. -/
theorem sameVerdict_of_decode_none (hcodec : codec.RoundTrips descriptors)
    (hhttp : body.length ≤ httpLimit cap) (hgrpc : body.length ≤ grpcLimit cap)
    (hdecode : decode descriptors.schema (.request signal) body = none) :
    SameVerdict (handle descriptors prost codec signal cap sink tenant body)
      (call descriptors prost codec signal cap sink tenant body) := by
  have hnever (reached : Option (SinkRecord Resource)) :
      handle descriptors prost codec signal cap sink tenant body = (.ok, reached) ↔
        False ∧ reached = none := by
    rw [handle_ok_iff hhttp, hdecode]
    simp
  have hnever' (reached : Option (SinkRecord Resource)) :
      call descriptors prost codec signal cap sink tenant body = (.ok, reached) ↔
        False ∧ reached = none := by
    rw [call_ok_iff hcodec hgrpc, hdecode]
    simp
  exact (sameVerdict_of_record none hnever hnever').mpr Iff.rfl

/-- On a body that decodes the transports agree when what each checks comes to the same. -/
theorem sameVerdict_of_decode_some (hcodec : codec.RoundTrips descriptors)
    (hhttp : body.length ≤ httpLimit cap) (hgrpc : body.length ≤ grpcLimit cap) {fields : Fields}
    (hdecode : decode descriptors.schema (.request signal) body = some fields) :
    SameVerdict (handle descriptors prost codec signal cap sink tenant body)
        (call descriptors prost codec signal cap sink tenant body) ↔
      (firstTagReferencesResourceField prost body = .ok () ∧
          sink (sinkRecord signal ⟨tenant, codec.request signal fields⟩) = .ok () ↔
        (submessages RESOURCE_FIELD_NUMBER fields ≠ [] ∧
            exceeds cap (codec.encodeToVec (codec.request signal fields)) = false) ∧
          sink (sinkRecord signal ⟨tenant, codec.request signal fields⟩) = .ok ()) := by
  refine sameVerdict_of_record
    (some (sinkRecord signal ⟨tenant, codec.request signal fields⟩)) (fun reached => ?_)
    fun reached => ?_
  · rw [handle_ok_iff hhttp, hdecode]
    simp [and_assoc]
  · rw [call_ok_iff hcodec hgrpc, hdecode]
    simp [and_assoc]

/-- Within the limits of both transports, whatever the sink takes, the transports agree on a body
exactly when it does not decode, has no resource, or starts with a resource just when writing the
request again stays within the cap. -/
theorem sameVerdict_iff (hcodec : codec.RoundTrips descriptors) {body : Bytes}
    {cap : Option UInt32} (hhttp : body.length ≤ httpLimit cap)
    (hgrpc : body.length ≤ grpcLimit cap) (tenant : TenantId) :
    (∀ sink : OtlpSink Resource,
        SameVerdict (handle descriptors prost codec signal cap sink tenant body)
          (call descriptors prost codec signal cap sink tenant body)) ↔
      ∀ fields, decode descriptors.schema (.request signal) body = some fields →
        submessages RESOURCE_FIELD_NUMBER fields ≠ [] →
          (firstTagReferencesResourceField prost body = .ok () ↔
            exceeds cap (codec.encodeToVec (codec.request signal fields)) = false) := by
  cases hdecode : decode descriptors.schema (.request signal) body with
  | none =>
    exact iff_of_true (fun _ => sameVerdict_of_decode_none hcodec hhttp hgrpc hdecode) nofun
  | some fields =>
    have hstarts (hfirst : firstTagReferencesResourceField prost body = .ok ()) :=
      submessages_ne_nil hfirst hdecode
    constructor
    · rintro hagree _ ⟨⟩ hresources
      have hboth := (sameVerdict_of_decode_some hcodec hhttp hgrpc hdecode).mp
        (hagree fun _ => .ok ())
      simpa [hresources] using hboth
    · intro hiff sink
      rw [sameVerdict_of_decode_some hcodec hhttp hgrpc hdecode]
      refine and_congr_left fun _ => ⟨fun hfirst => ?_, fun h => ?_⟩
      · exact ⟨hstarts hfirst, (hiff fields rfl (hstarts hfirst)).mp hfirst⟩
      · exact (hiff fields rfl h.1).mpr h.2

end

/-- A resource held as its fields, in the order of the wire. -/
abbrev WireResource {Inner : Type} (descriptors : Descriptors Inner) (signal : SignalType) :=
  { fields : Fields // typed descriptors.schema fields (.resource signal) = true ∧
    (encode fields).length < 2 ^ 64 }

/-- Resources held as their fields. -/
def wireCodec {Inner : Type} (descriptors : Descriptors Inner) :
    Codec (WireResource descriptors) where
  read := fun _ fields =>
    if h : typed descriptors.schema fields _ = true ∧ (encode fields).length < 2 ^ 64
    then ⟨fields, h⟩ else ⟨[], by rw [typed], by decide⟩
  write := fun _ resource => encode resource.1

/-- Fields that were written read back. -/
theorem wireCodec_roundTrips {Inner : Type} (descriptors : Descriptors Inner) :
    (wireCodec descriptors).RoundTrips descriptors := by
  rintro signal ⟨fields, htyped, hfits⟩
  refine ⟨hfits, ?_⟩
  have hread : (wireCodec descriptors).read signal fields = ⟨fields, htyped, hfits⟩ :=
    dif_pos ⟨htyped, hfits⟩
  exact (congrArg _ (decode_encode htyped hfits)).trans (congrArg some hread)

/-- Two resources, with a field that prost skips inside the first and another between the two. -/
def unknownFields : Bytes :=
  [0x0A, 6, 0x48, 0, 0x12, 2, 0x12, 0, 0x10, 7, 0x0A, 0]

/-- Fields that prost skips, behind the first tag: the transports agree, at a cap that the body just
meets, and the call is accepted. -/
theorem unknown_field_later_verdicts :
    SameVerdict
        (handle v1 plainProst (wireCodec v1) .logs (some 12) (fun _ => .ok ()) ⟨"acme"⟩
          unknownFields)
        (call v1 plainProst (wireCodec v1) .logs (some 12) (fun _ => .ok ()) ⟨"acme"⟩
          unknownFields) ∧
      (call v1 plainProst (wireCodec v1) .logs (some 12) (fun _ => .ok ()) ⟨"acme"⟩
        unknownFields).1 = .ok := by
  have hcap : (decode v1.schema (.request .logs) unknownFields).all (fun fields =>
      !exceeds (some 12) ((wireCodec v1).encodeToVec ((wireCodec v1).request .logs fields))) =
        true := by
    decide +kernel
  refine ⟨(sameVerdict_iff (wireCodec_roundTrips v1) (by decide +kernel) (by decide +kernel)
    ⟨"acme"⟩).mpr (fun fields hdecode _ => iff_of_true (by decide +kernel) ?_) fun _ => .ok (),
    by decide +kernel⟩
  simpa only [hdecode, Option.all_some, Bool.not_eq_true'] using hcap

/-- A field that prost skips, before one resource: the post is refused, the call is accepted. -/
theorem unknown_field_first_verdicts :
    ¬ SameVerdict
      (handle v1 plainProst (wireCodec v1) .logs none (fun _ => .ok ()) ⟨"acme"⟩
        [0x10, 0, 0x0A, 0])
      (call v1 plainProst (wireCodec v1) .logs none (fun _ => .ok ()) ⟨"acme"⟩
        [0x10, 0, 0x0A, 0]) := by
  have hcalled : (call v1 plainProst (wireCodec v1) .logs none (fun _ => .ok ()) ⟨"acme"⟩
      [0x10, 0, 0x0A, 0]).1 = .ok := by
    decide +kernel
  have hposted : (handle v1 plainProst (wireCodec v1) .logs none (fun _ => .ok ()) ⟨"acme"⟩
      [0x10, 0, 0x0A, 0]).1 ≠ .ok := by
    decide +kernel
  exact fun h => hposted (h.1.mpr hcalled)

end Kaleidoscope.Aperture
