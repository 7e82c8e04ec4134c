import ECapture.Events.Loop

/-!
# Which records are safe to process

A length field has to be bounded before an event is turned into text. `Dispatch` validates
first, so it is clean for every event. The reader loops evaluate `String` before they
dispatch, and two decoders have not validated by then.
-/

namespace ECapture.Events
open Library Traced

/-- The length fields of the event are within the arrays they cut. -/
def Bounded : Event → Prop
  | .tls e => 0 ≤ e.dataLen ∧ e.dataLen.toInt ≤ OpenSSL.maxDataSize
  | .gotls e => 0 ≤ e.dataLen ∧ e.dataLen.toInt ≤ GoTLS.maxGoTLSPayload
  | .gotlsSecret e => e.labelLen.toNat ≤ 32 ∧ e.clientRandomLen.toNat ≤ 64 ∧ e.secretLen.toNat ≤ 64
  | .mysql e => e.len.toNat ≤ MySQL.maxDataSize
  | _ => True

/-! ## Text of a bounded event -/

theorem tls_getData_safe (e : OpenSSL.Event) : Safe e.getData := by
  unfold OpenSSL.Event.getData
  split_ifs with empty long
  · simp
  · simp
  · simp only [safe_sliceTo, Vector.length_toList]
    omega

theorem gotls_getData_safe (e : GoTLS.GoTLSDataEvent) : Safe e.getData := by
  unfold GoTLS.GoTLSDataEvent.getData
  simp only [safe_sliceTo]
  split <;> omega

theorem ipToString_safe (ip : Bytes) (version : UInt8) :
    Safe (GoTLS.GoTLSDataEvent.ipToString ip version) := by
  unfold GoTLS.GoTLSDataEvent.ipToString
  split_ifs with four short six short
  · simp
  · exact Safe.map _ (by simp; omega)
  · simp
  · exact Safe.map _ (by simp; omega)
  · simp

theorem getTuple_safe (e : GoTLS.GoTLSDataEvent) : Safe e.getTuple := by
  unfold GoTLS.GoTLSDataEvent.getTuple
  split
  · simp
  · dsimp only
    split
    case h_1 => simp
    case h_2 size eq =>
      have fits : size ≤ 16 := by
        split_ifs at eq <;> cases eq <;> omega
      have slice : ∀ v : Vector UInt8 16, Safe (sliceTo size v.toList) := by
        intro v
        simpa using fits
      refine (slice _).bind fun _ _ => (ipToString_safe _ _).bind fun _ _ => ?_
      exact (slice _).bind fun _ _ => (ipToString_safe _ _).bind fun _ _ => by simp

theorem string_safe (host : Host) {e : Event} (h : Bounded e) : Safe (e.string host) := by
  cases e with
  | tls e => exact (tls_getData_safe e).bind fun _ _ => by simp
  | conn | masterSecret | packet => exact Safe.ok _
  | gotls e =>
    exact (getTuple_safe e).bind fun _ _ => (gotls_getData_safe e).bind fun _ _ => by simp
  | gotlsSecret e =>
    obtain ⟨label, random, -⟩ := h
    refine Safe.bind (by simpa using label) fun _ _ => ?_
    exact Safe.bind (by simpa using random) fun _ _ => by simp
  | mysql e =>
    exact Safe.bind (by simpa [Bounded, MySQL.maxDataSize] using h) fun _ _ => by simp

theorem stringHex_safe (host : Host) {e : Event} (h : Bounded e) : Safe (e.stringHex host) := by
  cases e with
  | tls e => exact (tls_getData_safe e).bind fun _ _ => by simp
  | conn | masterSecret | packet => exact Safe.ok _
  | gotls e =>
    exact (getTuple_safe e).bind fun _ _ => (gotls_getData_safe e).bind fun _ _ => by simp
  | gotlsSecret e =>
    obtain ⟨label, random, secret⟩ := h
    refine Safe.bind (by simpa using label) fun _ _ => ?_
    refine Safe.bind (by simpa using random) fun _ _ => ?_
    exact Safe.bind (by simpa using secret) fun _ _ => by simp
  | mysql e => exact string_safe host h

theorem keylogEvent_safe {e : Event} (h : Bounded e) : Safe e.keylogEvent := by
  cases e with
  | tls | conn | masterSecret | packet | gotls | mysql => exact Safe.ok _
  | gotlsSecret e =>
    obtain ⟨label, random, secret⟩ := h
    refine Safe.map _ (Safe.bind (safe_sliceTo.mpr (by simpa using label)) fun _ _ => ?_)
    refine Safe.bind (safe_sliceTo.mpr (by simpa using random)) fun _ _ => ?_
    exact Safe.bind (safe_sliceTo.mpr (by simpa using secret)) fun _ _ => by simp

/-- `Validate` bounds the lengths. -/
theorem bounded_of_validate {e : Event} (h : e.validate = .ok ()) : Bounded e := by
  cases e with
  | tls e =>
    simp only [Event.validate, OpenSSL.Event.validate] at h
    split_ifs at h with lengths
    simp only [not_or, Int32.not_lt, not_lt] at lengths
    exact lengths
  | conn | masterSecret | packet => trivial
  | gotls e =>
    simp only [Event.validate, GoTLS.GoTLSDataEvent.validate] at h
    split_ifs at h with long negative
    exact ⟨by simpa using negative, by simpa using long⟩
  | gotlsSecret e =>
    simp only [Event.validate, GoTLS.MasterSecretEvent.validate] at h
    split_ifs at h with label random secret
    simp only [UInt8.not_lt, UInt8.le_iff_toNat_le] at label random secret
    exact ⟨label, random, secret⟩
  | mysql e =>
    simp only [Event.validate, MySQL.Event.validate] at h
    split_ifs at h with long
    simpa [Bounded] using long

/-! ## Handlers and dispatcher -/

theorem suiteLength_le (cipherId : UInt32) : (Keylog.suiteParams cipherId).1 ≤ 64 := by
  unfold Keylog.suiteParams
  dsimp only
  split_ifs <;> simp [Keylog.evpMaxMdSize]

theorem length_secret {hk : Keylog.Hkdf} {e : Keylog.MasterSecretEvent} {s : Bytes × Bytes}
    (h : s ∈ Keylog.secrets hk e) : (Keylog.suiteParams e.cipherId).1 ≤ s.2.length := by
  have le := suiteLength_le e.cipherId
  unfold Keylog.secrets at h
  dsimp only at h
  rcases List.mem_append.mp h with h | h
  · simp only [List.mem_cons, List.not_mem_nil, or_false] at h
    rcases h with rfl | rfl | rfl | rfl <;> simpa using le
  · split at h
    · cases h
    · split_ifs at h with present
      · simp only [List.mem_cons, List.not_mem_nil, or_false] at h
        rcases h with rfl | rfl <;> simp [Keylog.expandLabel]
      · cases h

theorem forM_safe {α : Type} {f : α → Except Fault Unit} :
    ∀ (l : List α), (∀ a ∈ l, Safe (f a)) → Safe (l.forM f)
  | [], _ => Safe.ok ()
  | a :: l, h =>
    Safe.bind (h a (List.mem_cons_self ..)) fun _ _ =>
      forM_safe l fun b hb => h b (List.mem_cons_of_mem _ hb)

/-- The key log handler slices within bounds, whatever the event holds. -/
theorem keylogSlices_safe (hk : Keylog.Hkdf) (e : Keylog.KeylogEvent) :
    Safe (keylogSlices hk e) := by
  cases e with
  | goTLS | other => exact Safe.ok ()
  | masterSecret e =>
    have le := suiteLength_le e.cipherId
    unfold keylogSlices
    dsimp only
    split_ifs with old short short
    · simp
    · simp only [not_or, not_lt] at short
      refine Safe.bind (safe_sliceTo.mpr short.2) fun _ _ => ?_
      exact Safe.bind (safe_sliceTo.mpr short.1) fun _ _ => by simp
    · simp
    · refine Safe.bind (safe_sliceTo.mpr (by omega)) fun _ _ => ?_
      refine Safe.bind (by simpa using le) fun _ _ => ?_
      refine Safe.bind (by simpa using le) fun _ _ => ?_
      apply forM_safe
      intro s hs
      exact Safe.bind (safe_sliceTo.mpr (length_secret hs)) fun _ _ => by simp

theorem textHandle_clean (env : Env) {event : Event} (h : Bounded event) (t : TextHandler) :
    Clean Bounded (t.handle env event) := by
  refine (Clean.touch h).bind fun _ => (Clean.lift ?_).bind fun output => ?_
  · split
    · exact stringHex_safe env.host h
    · exact string_safe env.host h
  · split
    case isTrue => exact Clean.pure _
    case isFalse nonempty =>
      have last : output.length - 1 < output.length := by
        have := List.length_pos_iff.mpr nonempty
        omega
      refine (Clean.lift (safe_index last)).bind fun _ => ?_
      dsimp only
      split <;> exact Clean.pure _

theorem handle_clean (env : Env) {event : Event} (h : Bounded event) (handler : Handler) :
    Clean Bounded (handler.handle env event) := by
  cases handler with
  | text t => exact textHandle_clean env h t
  | keylog k =>
    refine (Clean.touch h).bind fun _ => (Clean.lift (keylogEvent_safe h)).bind fun e => ?_
    exact (Clean.lift (keylogSlices_safe env.hk e)).bind fun _ => Clean.pure _
  | pcap pw =>
    cases event with
    | packet e =>
      refine (Clean.touch h).bind fun _ => ?_
      split <;> exact Clean.pure _
    | tls | conn | masterSecret | gotls | gotlsSecret | mysql => exact Clean.pure _

theorem handleEach_clean (env : Env) {event : Event} (h : Bounded event) :
    ∀ (handlers : List Handler) (count : Nat) (lastErr : Option Error),
      Clean Bounded (handleEach env event handlers count lastErr)
  | [], _, _ => Clean.pure _
  | handler :: rest, _, _ =>
    (handle_clean env h handler).bind fun r =>
      (handleEach_clean env h rest _ r.1).bind fun _ => Clean.pure _

/-- `Dispatch` is clean for every event: an event that is not bounded fails `Validate`. -/
theorem dispatch_clean (env : Env) (order : HandlerOrder) (event : Event) (d : Dispatcher) :
    Clean Bounded (d.dispatch env order event) := by
  unfold Dispatcher.dispatch
  split
  · exact Clean.pure _
  · split
    case h_1 => exact Clean.pure _
    case h_2 valid =>
      have bounded := bounded_of_validate valid
      refine (handleEach_clean env bounded _ 0 none).bind fun r => ?_
      dsimp only
      split
      · refine (Clean.touch bounded).bind fun _ => ?_
        exact (Clean.lift (string_safe env.host bounded)).bind fun _ => Clean.pure _
      · exact Clean.pure _

theorem dispatchAll_clean (env : Env) :
    ∀ (orders : Nat → HandlerOrder) (events : List Event) (d : Dispatcher),
      Clean Bounded (dispatchAll env orders events d)
  | _, [], _ => Clean.pure _
  | orders, event :: rest, d =>
    (dispatch_clean env (orders 0) event d).bind fun _ => dispatchAll_clean env _ rest _

/-! ## Decoders -/

theorem decode_safe (host : Host) (m : PerfMap) (data : Bytes) : Safe (decode host m data) := by
  cases m with
  | tlsEvents | mastersecretEvents | skbEvents | mastersecretGoEvents | mysqlEvents =>
    exact Safe.ok _
  | connectEvents =>
    apply Safe.map
    unfold OpenSSL.ConnDataEvent.decodeFromBytes
    split
    · simp
    · have addr : ∀ (family : UInt16) (a : Vector UInt8 16),
          Safe (if family = OpenSSL.ConnDataEvent.afInet then ipv4Text <$> sliceTo 4 a.toList
            else .ok (addrFrom16Text a.toList)) := by
        intro family a
        split
        · exact Safe.map _ (by simp)
        · simp
      refine Safe.bind ?_ fun _ _ => by simp
      exact (addr _ _).bind fun _ _ => (addr _ _).bind fun _ _ => by simp
  | gotlsEvents =>
    apply Safe.map
    unfold GoTLS.GoTLSDataEvent.decodeFromBytes
    split
    · simp
    · exact (getTuple_safe _).bind fun _ _ => by simp

theorem bounded_of_validated {α : Type} {validate : α → Except Error Unit} {wrap : α → Event}
    {decoded : Except Error α} {event : Event} (h : validated validate wrap decoded = .ok event)
    (same : ∀ a, (wrap a).validate = validate a) : Bounded event := by
  cases decoded with
  | error err => cases h
  | ok a =>
    cases valid : validate a with
    | error err =>
      simp only [validated, bind, Except.bind, valid] at h
      cases h
    | ok u =>
      simp only [validated, bind, Except.bind, valid, pure, Except.pure, Except.ok.injEq] at h
      exact h ▸ bounded_of_validate (by rw [same, valid])

theorem decodePayload_ensures (dataLen : Int32) :
    Ensures (fun p : Int32 × Bytes => 0 ≤ p.1 ∧ p.1.toInt ≤ GoTLS.maxGoTLSPayload)
      (GoTLS.GoTLSDataEvent.decodePayload dataLen) := by
  intro buf p rest h
  unfold GoTLS.GoTLSDataEvent.decodePayload at h
  dsimp only at h
  split_ifs at h with positive remaining long
  · have kept : p.1 = dataLen := by
      cases read : readFull dataLen.toInt.toNat buf with
      | error e =>
        simp [field, Reader.mapError, Functor.map, StateT.map, read, bind, Except.bind,
          Except.mapError] at h
      | ok q =>
        rw [field_ok (Reader.map_ok read)] at h
        cases h
        rfl
    rw [kept]
    exact ⟨Int32.le_of_lt positive, by omega⟩
  · cases h
    exact ⟨by decide, by decide⟩

/-- The GoTLS data decoder bounds the length it keeps. -/
theorem gotls_bounded (host : Host) {data : Bytes} {e : GoTLS.GoTLSDataEvent}
    (h : (GoTLS.GoTLSDataEvent.decodeFields host).run data = .ok e) :
    0 ≤ e.dataLen ∧ e.dataLen.toInt ≤ GoTLS.maxGoTLSPayload := by
  have ensured : Ensures
      (fun e : GoTLS.GoTLSDataEvent => 0 ≤ e.dataLen ∧ e.dataLen.toInt ≤ GoTLS.maxGoTLSPayload)
      (GoTLS.GoTLSDataEvent.decodeFields host) := by
    unfold GoTLS.GoTLSDataEvent.decodeFields
    iterate 15 refine Ensures.skip fun _ => ?_
    exact (decodePayload_ensures _).bind fun p kept => Ensures.pure kept
  exact ensured.run_ok h

/-- The decoders other than those of GoTLS master secrets and MySQL give bounded events. -/
theorem decode_bounded {host : Host} {m : PerfMap} {data : Bytes} {event : Event}
    (h : decode host m data = .ok (.ok event)) (secret : m ≠ .mastersecretGoEvents)
    (mysql : m ≠ .mysqlEvents) : Bounded event := by
  cases m with
  | tlsEvents | skbEvents =>
    simp only [decode, Except.ok.injEq] at h
    exact bounded_of_validated h fun _ => rfl
  | connectEvents =>
    cases decoded : OpenSSL.ConnDataEvent.decodeFromBytes data with
    | error f => simp [decode, decoded, Functor.map, Except.map] at h
    | ok r =>
      simp only [decode, decoded, Functor.map, Except.map, Except.ok.injEq] at h
      exact bounded_of_validated h fun _ => rfl
  | mastersecretEvents =>
    cases decoded : OpenSSL.MasterSecretEvent.decode data with
    | error err => simp [decode, decoded, Functor.map, Except.map] at h
    | ok e =>
      simp only [decode, decoded, Functor.map, Except.map, Except.ok.injEq] at h
      exact h ▸ trivial
  | gotlsEvents =>
    simp only [decode, GoTLS.GoTLSDataEvent.decodeFromBytes] at h
    split at h
    case h_1 err decoded => simp [Functor.map, Except.map] at h
    case h_2 e decoded =>
      obtain ⟨tuple, eq⟩ := getTuple_safe e
      simp only [eq, bind, Except.bind, pure, Except.pure, Functor.map, Except.map,
        Except.ok.injEq] at h
      have bounds := gotls_bounded host decoded
      subst h
      exact bounds
  | mastersecretGoEvents => exact absurd rfl secret
  | mysqlEvents => exact absurd rfl mysql

theorem gotlsSecret_decode {data : Bytes} (len : 163 ≤ data.length) :
    ∃ e, GoTLS.MasterSecretEvent.decodeFromBytes data = .ok e ∧ e.labelLen = data[32] ∧
      e.clientRandomLen = data[97] ∧ e.secretLen = data[162] := by
  obtain ⟨label, read₁, -⟩ := readFull_drop data 0 32 (by omega)
  have read₂ := readU8_drop data 32 (by omega)
  obtain ⟨random, read₃, -⟩ := readFull_drop data 33 64 (by omega)
  have read₄ := readU8_drop data 97 (by omega)
  obtain ⟨secret, read₅, -⟩ := readFull_drop data 98 64 (by omega)
  have read₆ := readU8_drop data 162 (by omega)
  rw [List.drop_zero] at read₁
  refine ⟨⟨label, data[32], random, data[97], secret, data[162]⟩, ?_, rfl, rfl, rfl⟩
  have size : ¬ data.length < GoTLS.MasterSecretEvent.expectedSize := by
    simp [GoTLS.MasterSecretEvent.expectedSize]
    omega
  rw [GoTLS.MasterSecretEvent.decodeFromBytes, if_neg size]
  unfold Reader.run GoTLS.MasterSecretEvent.decodeFields
  rw [Reader.bind_ok (field_ok read₁), Reader.bind_ok (field_ok read₂),
    Reader.bind_ok (field_ok read₃), Reader.bind_ok (field_ok read₄),
    Reader.bind_ok (field_ok read₅), Reader.bind_ok (field_ok read₆)]
  rfl

theorem mysql_decode {data : Bytes} (len : 305 ≤ data.length) :
    ∃ e, MySQL.Event.decodeFromBytes.run data = .ok e ∧
      e.len.toNat = leNat ((data.drop 280).take 8) := by
  have read₁ := readU64_drop data 0 (by omega)
  have read₂ := readU64_drop data 8 (by omega)
  obtain ⟨query, read₃, -⟩ := readFull_drop data 16 256 (by omega)
  have read₄ := readU64_drop data 272 (by omega)
  have read₅ := readU64_drop data 280 (by omega)
  obtain ⟨comm, read₆, -⟩ := readFull_drop data 288 16 (by omega)
  have read₇ : readI8 (data.drop 304) = .ok (data[304].toInt8, data.drop 305) :=
    Reader.map_ok (readU8_drop data 304 (by omega))
  rw [List.drop_zero] at read₁
  refine ⟨⟨UInt64.ofNat (leNat (data.take 8)), UInt64.ofNat (leNat ((data.drop 8).take 8)), query,
    UInt64.ofNat (leNat ((data.drop 272).take 8)), UInt64.ofNat (leNat ((data.drop 280).take 8)),
    comm, data[304].toInt8⟩, ?_, ?_⟩
  · unfold Reader.run MySQL.Event.decodeFromBytes
    rw [Reader.bind_ok (MySQL.Event.field_ok read₁), Reader.bind_ok (MySQL.Event.field_ok read₂),
      Reader.bind_ok (MySQL.Event.field_ok read₃), Reader.bind_ok (MySQL.Event.field_ok read₄),
      Reader.bind_ok (MySQL.Event.field_ok read₅), Reader.bind_ok (MySQL.Event.field_ok read₆),
      Reader.bind_ok (MySQL.Event.field_ok read₇)]
    rfl
  · have bound := leNat_lt ((data.drop 280).take 8)
    have eight : ((data.drop 280).take 8).length = 8 := by simp; omega
    rw [eight] at bound
    simp only [UInt64.toNat_ofNat']
    omega

theorem mysql_short {data : Bytes} (short : data.length < 305) :
    ∃ err, MySQL.Event.decodeFromBytes.run data = .error err := by
  have word : Takes 8 readU64 := (Takes.readFull 8).map _
  have byte : Takes 1 readI8 := ((Takes.readFull 1).map _).map _
  have record : Takes (8 + (8 + (256 + (8 + (8 + (16 + (1 + 0)))))))
      MySQL.Event.decodeFromBytes :=
    (word.mapError _).bind fun _ => (word.mapError _).bind fun _ =>
      ((Takes.readFull 256).mapError _).bind fun _ => (word.mapError _).bind fun _ =>
      (word.mapError _).bind fun _ => ((Takes.readFull 16).mapError _).bind fun _ =>
      (byte.mapError _).bind fun _ => Takes.pure _
  exact record.run_error short

/-! ## One iteration of the loops -/

/-- The iteration returns, and every event on which `String` or a getter was evaluated is
bounded. -/
def Sound {α : Type} (iteration : Traced Event α) : Prop :=
  ∃ a trace, iteration [] = .ok (a, trace) ∧ ∀ event ∈ trace, Bounded event

/-- The length fields of a record are within bounds, or the record is too short to have them. -/
def LengthsOk (m : PerfMap) (data : Bytes) : Prop :=
  match m with
  | .mastersecretGoEvents =>
    data.length < 163 ∨ (data.getD 32 0).toNat ≤ 32 ∧ (data.getD 97 0).toNat ≤ 64 ∧
      (data.getD 162 0).toNat ≤ 64
  | .mysqlEvents => data.length < 305 ∨ leNat ((data.drop 280).take 8) ≤ 256
  | _ => True

/-- A record meets `LengthsOk` exactly if its event, when it has one, is bounded. -/
theorem lengthsOk_iff (host : Host) (m : PerfMap) (data : Bytes) :
    LengthsOk m data ↔ ∀ event, decode host m data = .ok (.ok event) → Bounded event := by
  cases m with
  | tlsEvents | connectEvents | mastersecretEvents | skbEvents | gotlsEvents =>
    exact ⟨fun _ event h => decode_bounded h (by simp) (by simp), fun _ => trivial⟩
  | mastersecretGoEvents =>
    by_cases len : 163 ≤ data.length
    · obtain ⟨e, decoded, label, random, secret⟩ := gotlsSecret_decode len
      have get : ∀ i (h : i < data.length), data[i]?.getD 0 = data[i] := fun i h => by simp [h]
      simp [decode, decoded, Functor.map, Except.map, LengthsOk, Bounded, label, random, secret,
        get 32 (by omega), get 97 (by omega), get 162 (by omega)]
      omega
    · have short : data.length < GoTLS.MasterSecretEvent.expectedSize := by
        simp [GoTLS.MasterSecretEvent.expectedSize]
        omega
      refine ⟨fun _ event h => ?_, fun _ => .inl (by omega)⟩
      simp [decode, GoTLS.MasterSecretEvent.decodeFromBytes, short, Functor.map, Except.map] at h
  | mysqlEvents =>
    by_cases len : 305 ≤ data.length
    · obtain ⟨e, decoded, value⟩ := mysql_decode len
      simp [decode, decoded, Functor.map, Except.map, LengthsOk, Bounded, MySQL.maxDataSize, value]
      omega
    · obtain ⟨err, failed⟩ := mysql_short (by omega : data.length < 305)
      refine ⟨fun _ event h => ?_, fun _ => .inl (by omega)⟩
      simp [decode, failed, Functor.map, Except.map] at h

/-- The part both loops share: after the decoder, `String`, then something clean. -/
theorem sound_iff {α : Type} {host : Host} {m : PerfMap} {data : Bytes}
    {next : Except Error Event → Traced Event α} {stop : α}
    (failed : ∀ err, next (.error err) = pure stop)
    (decoded : ∀ event, ∃ rest : Traced Event α, Clean Bounded rest ∧
      next (.ok event) = (do
        Traced.touch event
        let _ ← Traced.lift (event.string host)
        rest)) :
    Sound (Traced.lift (decode host m data) >>= next) ↔ LengthsOk m data := by
  rw [lengthsOk_iff host]
  obtain ⟨r, eq⟩ := decode_safe host m data
  have run : (Traced.lift (decode host m data) >>= next) [] = next r [] := by
    rw [eq]
    rfl
  cases r with
  | error err =>
    refine ⟨fun _ event h => ?_, fun _ => ⟨stop, [], by rw [run, failed]; rfl, by simp⟩⟩
    rw [eq] at h
    cases h
  | ok event =>
    obtain ⟨rest, clean, split⟩ := decoded event
    constructor
    · rintro ⟨a, trace, ran, bounded⟩ event' h
      rw [eq] at h
      cases h
      -- the event is recorded before its text is computed, and stays recorded
      rw [run, split] at ran
      cases text : event.string host with
      | error f =>
        simp [text] at ran
      | ok s =>
        simp only [text, touch_bind, lift_ok_bind] at ran
        obtain ⟨a', trace', ran', grows, -⟩ := clean [event]
        rw [ran] at ran'
        cases ran'
        exact bounded event (grows (List.mem_singleton_self event))
    · intro all
      have bounded := all event eq
      have whole : Clean Bounded (do
          Traced.touch event
          let _ ← Traced.lift (event.string host)
          rest : Traced Event α) :=
        (Clean.touch bounded).bind fun _ => (Clean.lift (string_safe host bounded)).bind fun _ => clean
      obtain ⟨a, trace, ran, -, new⟩ := whole []
      refine ⟨a, trace, by rw [run, split]; exact ran, fun event h => ?_⟩
      simpa using new event h

/-- One iteration of either reader loop returns, with every event bounded before its text or its
getters are evaluated, exactly on the records whose length fields are within bounds. -/
theorem reader_loops_sound_iff (env : Env) (order : HandlerOrder) (orders : Nat → HandlerOrder)
    (m : PerfMap) (data : Bytes) (d : Dispatcher) (reorder : Reorder.PerfLagReorder Event) :
    (Sound (perfEventLoop env order m data d) ↔ LengthsOk m data) ∧
    (Sound (perfEventLoopOrdered env orders m data d reorder) ↔ LengthsOk m data) := by
  refine ⟨sound_iff (fun _ => rfl) fun event => ?_, sound_iff (fun _ => rfl) fun event => ?_⟩
  · exact ⟨_, (dispatch_clean env order event d).bind fun r => Clean.pure r.2, rfl⟩
  · refine ⟨_, ?_, rfl⟩
    split
    · exact (dispatch_clean env (orders 0) event d).bind fun r => Clean.pure _
    · exact (dispatchAll_clean env orders _ d).bind fun _ => Clean.pure _

/-- A host at the epoch, an empty key derivation and writers that never fail. -/
def plainEnv : Env :=
  { host := ⟨0, 0, fun _ => []⟩, hk := ⟨fun _ _ _ n => Vector.replicate n 0⟩,
    writerOk := fun _ => true, secretsOrder := ⟨id, fun _ => .refl _⟩ }

/-- A GoTLS master secret record that says its label has 255 bytes. -/
def longLabel : Bytes := List.replicate 32 65 ++ 255 :: List.replicate 130 0

theorem length_longLabel : longLabel.length = 163 := by
  simp only [longLabel, List.length_append, List.length_cons, List.length_replicate]

/-- The reader loop stops the program on such a record. -/
theorem reader_loop_faults :
    perfEventLoop plainEnv ⟨id, fun _ => .refl _⟩ .mastersecretGoEvents longLabel ⟨[], false⟩ [] =
      .error .sliceBounds ∧
    ¬ Sound (perfEventLoop plainEnv ⟨id, fun _ => .refl _⟩ .mastersecretGoEvents longLabel
      ⟨[], false⟩) := by
  obtain ⟨e, decoded, label, -⟩ :=
    gotlsSecret_decode length_longLabel.ge
  have record : decode plainEnv.host .mastersecretGoEvents longLabel =
      .ok (.ok (.gotlsSecret e)) := by
    simp [decode, decoded, Functor.map, Except.map]
  have length : e.labelLen.toNat = 255 := by
    rw [label]
    rfl
  have text : (Event.gotlsSecret e).string plainEnv.host = .error .sliceBounds := by
    simp [Event.string, GoTLS.MasterSecretEvent.string, sliceTo, length, bind, Except.bind]
  have faults : perfEventLoop plainEnv ⟨id, fun _ => .refl _⟩ .mastersecretGoEvents longLabel
      ⟨[], false⟩ [] = .error .sliceBounds := by
    simp [perfEventLoop, record, text]
  refine ⟨faults, ?_⟩
  rintro ⟨a, trace, ran, -⟩
  rw [faults] at ran
  cases ran

end ECapture.Events
