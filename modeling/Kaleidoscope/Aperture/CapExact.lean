import Kaleidoscope.Aperture.BodySizeCap

/-!
# What the cap accepts

Both transports accept a body by its whole length and by the length that it declares, however it is
cut into frames. The event tells of no other body, unless a posted one cannot be read to its end.
-/

namespace Kaleidoscope.Aperture

open Utf8

/-- The bounded reader fails if the body is longer than its limit or cannot be read to its end, and
collects all its data otherwise. -/
def Bounded (limited : Body → Nat → Option Bytes) : Prop :=
  ∀ body limit,
    limited body limit = if body.ends ∧ body.data.length ≤ limit then some body.data else none

/-- A declared length that is that of the body, if the body ends, or no length. -/
def Truthful (contentLength : Option Bytes) (body : Body) : Prop :=
  ∀ declared ∈ declaredContentLength contentLength, body.ends → declared = body.data.length

/-- What the cap is for: of the bodies that end, exactly those within it are let through, as they
were sent, and the event tells only of bodies that are longer than the cap or declare to be. -/
structure CapExact (limited : Body → Nat → Option Bytes) (limit : UInt32) (signal : String)
    (contentLength : Option Bytes) (body : Body) : Prop where
  http : Truthful contentLength body → ∀ bytes,
    (readHttpBodyWithinCap limited (some limit) contentLength body signal).1 = .ok bytes ↔
      body.ends ∧ body.data.length ≤ limit.toNat ∧ bytes = body.data
  grpc : body.ends → ∀ forwarded,
    (grpcBodyCapCall (some limit) signal body).1 = .forwarded forwarded ↔
      forwarded = fullBoxBody body.data ∧ body.data.length ≤ limit.toNat + GRPC_HEADER_SIZE ∧
        ∀ declared ∈ declaredLength body.data, declared ≤ limit.toNat
  httpEvent : ∀ event ∈ (readHttpBodyWithinCap limited (some limit) contentLength body signal).2,
    limit.toNat < body.data.length ∨
      ∃ declared ∈ declaredContentLength contentLength, limit.toNat < declared
  grpcEvent : ∀ event ∈ (grpcBodyCapCall (some limit) signal body).2,
    limit.toNat < body.data.length ∨ ∃ declared ∈ declaredLength body.data, limit.toNat < declared

section Grpc

variable {limit : UInt32} {ends : Bool}

/-- What the loop refuses as soon as it has it. -/
def OverCap (limit : UInt32) (buf : Bytes) : Prop :=
  limit.toNat + GRPC_HEADER_SIZE < buf.length ∨
    ∃ declared ∈ declaredLength buf, limit.toNat < declared

/-- A declared length does not change with what comes after it. -/
theorem declaredLength_append {buf : Bytes} {declared : Nat} (h : declared ∈ declaredLength buf)
    (rest : Bytes) : declared ∈ declaredLength (buf ++ rest) := by
  match buf with
  | _ :: _ :: _ :: _ :: _ :: _ => exact h

theorem OverCap.append {buf : Bytes} (h : OverCap limit buf) (rest : Bytes) :
    OverCap limit (buf ++ rest) := by
  rcases h with hlength | ⟨declared, hdeclared, hlt⟩
  · exact .inl (hlength.trans_le (by rw [List.length_append]; exact Nat.le_add_right _ _))
  · exact .inr ⟨declared, declaredLength_append hdeclared rest, hlt⟩

theorem grpcPrefixVerdict_eq_none_iff {buf : Bytes} :
    grpcPrefixVerdict buf limit = none ↔
      ∀ declared ∈ declaredLength buf, declared ≤ limit.toNat := by
  rw [grpcPrefixVerdict]
  cases declaredLength buf with
  | none => simp
  | some declaredLen => simp

theorem grpcPrefixVerdict_eq_some {buf : Bytes} {verdict : BodyCapOutcome}
    (h : grpcPrefixVerdict buf limit = some verdict) :
    ∃ declared ∈ declaredLength buf, limit.toNat < declared ∧ verdict = .overCap declared := by
  rw [grpcPrefixVerdict] at h
  cases hdeclared : declaredLength buf with
  | none => simp [hdeclared] at h
  | some declaredLen =>
    simp only [hdeclared] at h
    split_ifs at h with hlt
    exact ⟨declaredLen, rfl, hlt, (Option.some.inj h).symm⟩

/-- What the loop makes of a body depends on its data only: it hands on all of it if nothing in it
is over the cap, and refuses it only for what is. -/
theorem collectFrames_spec (frames : List Frame) (buf : Bytes)
    (hbuf : buf.length ≤ limit.toNat + GRPC_HEADER_SIZE) :
    match collectFrames limit ends frames buf with
    | .withinCap bytes =>
      ends ∧ bytes = buf ++ framesData frames ∧ ¬ OverCap limit (buf ++ framesData frames)
    | .overCap _ => OverCap limit (buf ++ framesData frames)
    | .readError => ends = false := by
  induction frames generalizing buf with
  | nil =>
    rw [collectFrames, framesData_nil, List.append_nil]
    cases ends with
    | false => rfl
    | true =>
      cases hverdict : grpcPrefixVerdict buf limit with
      | none =>
        refine ⟨rfl, rfl, ?_⟩
        rintro (hlength | ⟨declared, hdeclared, hlt⟩)
        · exact hlength.not_ge hbuf
        · exact hlt.not_ge (grpcPrefixVerdict_eq_none_iff.mp hverdict declared hdeclared)
      | some verdict =>
        obtain ⟨declared, hdeclared, hlt, rfl⟩ := grpcPrefixVerdict_eq_some hverdict
        exact .inr ⟨declared, hdeclared, hlt⟩
  | cons frame frames ih =>
    cases frame with
    | trailers => exact ih buf hbuf
    | data data =>
      rw [collectFrames, framesData_cons, Frame.bytes, ← List.append_assoc]
      cases hverdict : grpcPrefixVerdict (buf ++ data) limit with
      | some verdict =>
        obtain ⟨declared, hdeclared, hlt, rfl⟩ := grpcPrefixVerdict_eq_some hverdict
        exact OverCap.append (.inr ⟨declared, hdeclared, hlt⟩) _
      | none =>
        by_cases hlength : (buf ++ data).length > limit.toNat + GRPC_HEADER_SIZE
        · simp only [hlength, if_true]
          exact OverCap.append (.inl hlength) _
        · simp only [hlength, if_false]
          exact ih (buf ++ data) (not_lt.mp hlength)

theorem collectGrpcBodyWithinCap_spec (body : Body) :
    match collectGrpcBodyWithinCap body limit with
    | .withinCap bytes => body.ends ∧ bytes = body.data ∧ ¬ OverCap limit body.data
    | .overCap _ => OverCap limit body.data
    | .readError => body.ends = false :=
  collectFrames_spec body.frames [] (Nat.zero_le _)

/-- A body that ends is collected exactly if nothing in it is over the cap. -/
theorem collectGrpcBodyWithinCap_eq_iff {body : Body} (hends : body.ends) {bytes : Bytes} :
    collectGrpcBodyWithinCap body limit = .withinCap bytes ↔
      bytes = body.data ∧ ¬ OverCap limit body.data := by
  have hspec := @collectGrpcBodyWithinCap_spec limit body
  cases hcollect : collectGrpcBodyWithinCap body limit with
  | withinCap collected =>
    simp only [hcollect] at hspec
    simp [hspec, eq_comm]
  | overCap observed =>
    simp only [hcollect] at hspec
    simp [hspec]
  | readError =>
    simp only [hcollect, hends, Bool.true_eq_false] at hspec

end Grpc

section Calls

variable {limit : UInt32} {signal : String} {body : Body}

theorem grpcBodyCapCall_eq (hpos : 0 < limit) :
    grpcBodyCapCall (some limit) signal body =
      match collectGrpcBodyWithinCap body limit with
      | .withinCap bytes => (.forwarded (fullBoxBody bytes), [])
      | .overCap observed =>
        (.status .resourceExhausted (tooLargeMessage limit observed),
          [emitBodyTooLarge .grpc signal limit observed])
      | .readError => (.status .internal "aperture: failed to read request body", []) := by
  cases hcollect : collectGrpcBodyWithinCap body limit <;>
    simp [grpcBodyCapCall, activeCap, hpos, hcollect]

/-- A call whose body ends is forwarded exactly if nothing in it is over the cap. -/
theorem grpcBodyCapCall_forwarded_iff (hpos : 0 < limit) (hends : body.ends) {forwarded : Body} :
    (grpcBodyCapCall (some limit) signal body).1 = .forwarded forwarded ↔
      forwarded = fullBoxBody body.data ∧ ¬ OverCap limit body.data := by
  have hcollected := @collectGrpcBodyWithinCap_eq_iff limit body hends
  rw [grpcBodyCapCall_eq hpos]
  cases hcollect : collectGrpcBodyWithinCap body limit with
  | withinCap bytes =>
    obtain ⟨rfl, hwithin⟩ := hcollected.mp hcollect
    simp [hwithin, eq_comm]
  | overCap observed =>
    have hover : OverCap limit body.data := by
      by_contra hwithin
      have := hcollected.mpr ⟨rfl, hwithin⟩
      simp [hcollect] at this
    simp [hover]
  | readError =>
    have hspec := @collectGrpcBodyWithinCap_spec limit body
    simp only [hcollect, hends, Bool.true_eq_false] at hspec

/-- The event of a call tells of a body that is over the cap. -/
theorem overCap_of_grpc_event (hpos : 0 < limit) {event : BodyTooLarge}
    (h : event ∈ (grpcBodyCapCall (some limit) signal body).2) : OverCap limit body.data := by
  have hspec := @collectGrpcBodyWithinCap_spec limit body
  rw [grpcBodyCapCall_eq hpos] at h
  cases hcollect : collectGrpcBodyWithinCap body limit with
  | overCap observed => simpa only [hcollect] using hspec
  | withinCap bytes => simp [hcollect] at h
  | readError => simp [hcollect] at h

variable {limited : Body → Nat → Option Bytes} {contentLength : Option Bytes}

/-- A post is refused for the length that it declares, else read by the bounded reader. -/
theorem readHttpBodyWithinCap_eq (hlimited : Bounded limited) (hpos : 0 < limit) :
    readHttpBodyWithinCap limited (some limit) contentLength body signal =
      match (declaredContentLength contentLength).filter (limit.toNat < ·) with
      | some declared =>
        (.error (rejectHttpTooLarge limit declared),
          [emitBodyTooLarge .httpProtobuf signal limit declared])
      | none =>
        if body.ends ∧ body.data.length ≤ limit.toNat then (.ok body.data, [])
        else
          (.error (rejectHttpTooLarge limit (limit.toNat + 1)),
            [emitBodyTooLarge .httpProtobuf signal limit (limit.toNat + 1)]) := by
  simp only [readHttpBodyWithinCap, activeCap, hpos, if_true, hlimited body limit.toNat]
  by_cases hread : body.ends = true ∧ body.data.length ≤ limit.toNat
  · simp only [hread, and_self, if_true]
    cases declaredContentLength contentLength with
    | none => rfl
    | some declared =>
      by_cases hlt : limit.toNat < declared <;> simp [Option.filter, hlt]
  · simp only [hread, if_false]
    cases declaredContentLength contentLength with
    | none => rfl
    | some declared =>
      by_cases hlt : limit.toNat < declared <;> simp [Option.filter, hlt]

theorem filter_eq_none_iff :
    (declaredContentLength contentLength).filter (limit.toNat < ·) = none ↔
      ∀ declared ∈ declaredContentLength contentLength, declared ≤ limit.toNat := by
  simp [Option.filter_eq_none_iff]

/-- A post that does not lie about its length is accepted exactly if it ends within the cap. -/
theorem readHttpBodyWithinCap_ok_iff (hlimited : Bounded limited) (hpos : 0 < limit)
    (htruthful : Truthful contentLength body) {bytes : Bytes} :
    (readHttpBodyWithinCap limited (some limit) contentLength body signal).1 = .ok bytes ↔
      body.ends ∧ body.data.length ≤ limit.toNat ∧ bytes = body.data := by
  rw [readHttpBodyWithinCap_eq hlimited hpos]
  cases hdeclared : (declaredContentLength contentLength).filter (limit.toNat < ·) with
  | some declared =>
    obtain ⟨hmem, hlt⟩ := Option.filter_eq_some_iff.mp hdeclared
    have hlong : body.ends → ¬ body.data.length ≤ limit.toNat := fun hends hle =>
      (of_decide_eq_true hlt).not_ge (htruthful declared hmem hends ▸ hle)
    simp only [reduceCtorEq, false_iff]
    exact fun ⟨hends, hle, _⟩ => hlong hends hle
  | none =>
    by_cases hread : body.ends = true ∧ body.data.length ≤ limit.toNat
    · simp [hread, eq_comm]
    · simp only [hread, if_false, reduceCtorEq, false_iff]
      exact fun ⟨hends, hle, _⟩ => hread ⟨hends, hle⟩

/-- The event of a post tells of a body that is or declares to be longer than the cap, or of one
within it that cannot be read to its end. -/
theorem http_events_eq_nil_iff (hlimited : Bounded limited) (hpos : 0 < limit) :
    (readHttpBodyWithinCap limited (some limit) contentLength body signal).2 = [] ↔
      body.ends ∧ body.data.length ≤ limit.toNat ∧
        ∀ declared ∈ declaredContentLength contentLength, declared ≤ limit.toNat := by
  rw [readHttpBodyWithinCap_eq hlimited hpos, ← filter_eq_none_iff]
  cases (declaredContentLength contentLength).filter (limit.toNat < ·) with
  | some declared => simp
  | none =>
    by_cases hread : body.ends = true ∧ body.data.length ≤ limit.toNat
    · simp [hread]
    · simp only [hread, if_false, List.cons_ne_nil, and_true]

theorem activeCap_eq_some {cap : Option UInt32} {limit : UInt32}
    (h : activeCap cap = some limit) : cap = some limit ∧ 0 < limit := by
  cases cap with
  | none => cases h
  | some n =>
    rw [activeCap] at h
    split_ifs at h with hpos
    obtain rfl := Option.some.inj h
    exact ⟨rfl, hpos⟩

/-- Whatever the cap is, a post that ends is read exactly if it is within the limit of posts. -/
theorem readHttpBodyWithinCap_iff_httpLimit (hlimited : Bounded limited)
    (htruthful : Truthful contentLength body) (hends : body.ends) {cap : Option UInt32}
    {bytes : Bytes} :
    (readHttpBodyWithinCap limited cap contentLength body signal).1 = .ok bytes ↔
      body.data.length ≤ httpLimit cap ∧ bytes = body.data := by
  cases hcap : activeCap cap with
  | none =>
    have hlimit : httpLimit cap = DEFAULT_HTTP_BODY_LIMIT_BYTES := by
      rw [httpLimit, hcap]
      rfl
    simp only [readHttpBodyWithinCap, hcap, collectUncapped, hlimited body, hends, true_and,
      hlimit]
    split_ifs with hle
    · simp [hle, eq_comm]
    · simp [hle]
  | some limit =>
    obtain ⟨rfl, hpos⟩ := activeCap_eq_some hcap
    have hlimit : httpLimit (some limit) = limit.toNat := by
      rw [httpLimit, hcap]
      rfl
    rw [readHttpBodyWithinCap_ok_iff hlimited hpos htruthful, hlimit]
    exact and_iff_right hends

/-- A framed message is handed on exactly if it is within the cap, if there is one. -/
theorem exists_forwarded_iff (hends : body.ends) {cap : Option UInt32} {message : Bytes}
    (hframed : body.data.length = GRPC_HEADER_SIZE + message.length)
    (hdeclared : declaredLength body.data = some message.length) :
    (∃ forwarded, (grpcBodyCapCall cap signal body).1 = .forwarded forwarded) ↔
      ∀ limit ∈ activeCap cap, message.length ≤ limit.toNat := by
  cases hcap : activeCap cap with
  | none => simp [grpcBodyCapCall, hcap]
  | some limit =>
    obtain ⟨rfl, hpos⟩ := activeCap_eq_some hcap
    simp only [grpcBodyCapCall_forwarded_iff hpos hends, exists_eq_left, Option.mem_def,
      Option.some.injEq, forall_eq', OverCap, hframed, hdeclared, exists_eq_left']
    omega

end Calls

/-- A reader that counts down from its limit, frame by frame. -/
def limitedFrames (ends : Bool) : List Frame → Nat → Option Bytes
  | [], _ => if ends then some [] else none
  | frame :: frames, remaining =>
    if remaining < frame.bytes.length then none
    else (limitedFrames ends frames (remaining - frame.bytes.length)).map (frame.bytes ++ ·)

theorem limitedFrames_eq (ends : Bool) (frames : List Frame) (limit : Nat) :
    limitedFrames ends frames limit =
      if ends ∧ (framesData frames).length ≤ limit then some (framesData frames) else none := by
  induction frames generalizing limit with
  | nil => simp [limitedFrames]
  | cons frame frames ih =>
    rw [limitedFrames, ih, framesData_cons, List.length_append]
    by_cases hlt : limit < frame.bytes.length
    · have hlong : ¬ (ends = true ∧
          frame.bytes.length + (framesData frames).length ≤ limit) := fun h => by omega
      rw [if_pos hlt, if_neg hlong]
    · have hrest : (framesData frames).length ≤ limit - frame.bytes.length ↔
          frame.bytes.length + (framesData frames).length ≤ limit := by omega
      rw [if_neg hlt]
      simp only [hrest]
      split_ifs <;> rfl

theorem bounded_limitedFrames : Bounded fun body => limitedFrames body.ends body.frames :=
  fun body limit => limitedFrames_eq body.ends body.frames limit

end Kaleidoscope.Aperture
