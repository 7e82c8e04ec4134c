import ECapture.Events.Loop
import ECapture.Kernel.Ssl
import ECapture.Library.Unwinding

/-!
# What filtered-out processes show

In text mode the records of `tls_events` and `connect_events` go to the text handler. With a filter
set, processes that it turns away should leave no trace there: two runs that differ only in what they
do give the same output.

`probe_connect` has no filter, it only stores for the calling thread, and the table of the other
threads is not touched as long as it does not overflow. `probe_tcp_v4_destroy_sock` has no filter
either, and it emits.
-/

namespace ECapture.Kernel.Ssl
open Library

/-! ## Output -/

/-- The records that a program adds, each with its ring. -/
def newRecords (c : Consts) (off : Offsets) (s : Maps) (e : Event) :
    List (Events.PerfMap × Bytes) :=
  let t := exec c off s e
  (t.tlsEvents.drop s.tlsEvents.length).map (Prod.mk .tlsEvents) ++
    (t.connectEvents.drop s.connectEvents.length).map (Prod.mk .connectEvents)

def onlyHandler : Events.HandlerOrder := ⟨id, fun _ => .refl _⟩

/-- The lines the text handler writes for a record: one iteration of the reader loop. -/
def textLines (env : Events.Env) (useHex : Bool) (record : Events.PerfMap × Bytes) : List Bytes :=
  match Events.perfEventLoop env onlyHandler record.1 record.2
      ⟨[.text ⟨useHex, [], 0⟩], false⟩ [] with
  | .ok (⟨[.text h], _⟩, _) => h.output
  | _ => []

/-- The records of a whole run. -/
def recordsOf (c : Consts) (off : Offsets) (es : List Event) : List (Events.PerfMap × Bytes) :=
  observe (exec c off) (newRecords c off) .new es

def linesOf (c : Consts) (off : Offsets) (env : Events.Env) (useHex : Bool) (es : List Event) :
    List Bytes :=
  (recordsOf c off es).flatMap (textLines env useHex)

/-! ## Filtered-out processes -/

/-- The filter turns the process away whenever one of its threads runs a program. -/
def FilteredOut (c : Consts) (hidden : UInt32 → Bool) (es : List Event) : Prop :=
  ∀ e ∈ es, hidden e.ctx.task.pid = true → passesFilter c e.ctx.task = false

def visible (hidden : UInt32 → Bool) (e : Event) : Bool := !hidden e.ctx.task.pid

/-- A step that a rejected task cannot use to show itself: it destroys no socket, it sets no fd, and
the threads of the other processes find room in `tcp_fd_infos`. -/
def Contained (c : Consts) (hidden : UInt32 → Bool) (s : Maps) (e : Event) : Prop :=
  match e.prog with
  | .tcpV4DestroySock _ => passesFilter c e.ctx.task = true
  | .setFd _ _ => hidden e.ctx.task.pid = false
  | .connect _ => hidden e.ctx.task.pid = false → s.tcpFdInfos.HasRoom e.ctx.task.pidTgid
  | _ => True

/-- Every record comes from a task that passes the filter. -/
def CausedByAccepted (c : Consts) (off : Offsets) (s : Maps) (e : Event) : Prop :=
  newRecords c off s e ≠ [] → passesFilter c e.ctx.task = true

/-! ## A rejected task -/

/-- A rejected task changes nothing but its own entry in `tcp_fd_infos`. -/
theorem exec_rejected {c : Consts} {e : Event} (off : Offsets) (s : Maps)
    (rejected : passesFilter c e.ctx.task = false) (noDestroy : ∀ sk, e.prog ≠ .tcpV4DestroySock sk)
    (noFd : ∀ ssl fd, e.prog ≠ .setFd ssl fd) :
    ∃ infos, exec c off s e = { s with tcpFdInfos := infos } ∧
      ∀ k, k ≠ e.ctx.task.pidTgid → infos.lookup k = s.tcpFdInfos.lookup k := by
  obtain ⟨x, prog⟩ := e
  have finish : ∀ fd active, ∃ infos, finishConnect c fd active x s = { s with tcpFdInfos := infos } ∧
      ∀ k, k ≠ x.task.pidTgid → infos.lookup k = s.tcpFdInfos.lookup k := by
    intro fd active
    unfold finishConnect kretprobeConnect
    simp only [rejected, Bool.not_false, if_true, ite_self]
    split
    · exact ⟨_, rfl, fun k other => Table.lookup_delete_of_ne other _⟩
    · exact ⟨_, rfl, fun _ _ => rfl⟩
  have inet : ∀ sock, ∃ infos, probeInet sock x s = { s with tcpFdInfos := infos } ∧
      ∀ k, k ≠ x.task.pidTgid → infos.lookup k = s.tcpFdInfos.lookup k := by
    intro sock
    unfold probeInet
    split
    · exact ⟨_, rfl, fun k other => Table.lookup_update_of_ne other _ _⟩
    · exact ⟨_, rfl, fun _ _ => rfl⟩
  cases prog with
  | entrySSL f ssl buf =>
    refine ⟨s.tcpFdInfos, ?_, fun _ _ => rfl⟩
    simp [exec, probeEntrySSL, rejected]
  | retSSL f rc =>
    refine ⟨s.tcpFdInfos, ?_, fun _ _ => rfl⟩
    simp [exec, probeRetSSL, rejected]
  | connect fd => exact ⟨_, rfl, fun k other => Table.lookup_update_of_ne other _ _⟩
  | inetStreamConnect sock => exact inet sock
  | inetAccept newsock => exact inet newsock
  | retConnect => exact finish _ true
  | retAccept4 rc =>
    simp only [exec, retprobeAccept4]
    split
    · exact ⟨_, rfl, fun _ _ => rfl⟩
    · exact finish _ false
  | tcpV4DestroySock sk => exact absurd rfl (noDestroy sk)
  | setFd ssl fd => exact absurd rfl (noFd ssl fd)

theorem newRecords_eq_nil {c : Consts} {off : Offsets} {s : Maps} {e : Event}
    {infos : Table UInt64 TcpFdInfo} (same : exec c off s e = { s with tcpFdInfos := infos }) :
    newRecords c off s e = [] := by
  simp [newRecords, same]

theorem Contained.causedByAccepted {c : Consts} {off : Offsets} {hidden : UInt32 → Bool} {s : Maps}
    {e : Event} (contained : Contained c hidden s e) : CausedByAccepted c off s e := by
  intro emits
  cases passes : passesFilter c e.ctx.task with
  | true => rfl
  | false =>
    obtain ⟨x, prog⟩ := e
    cases prog with
    | setFd ssl fd => simp [newRecords, exec, probeSSLSetFd] at emits
    | tcpV4DestroySock sk => exact absurd (passes.symm.trans contained) (by decide)
    | _ =>
      obtain ⟨infos, same, -⟩ := exec_rejected off s passes (by simp) (by simp)
      exact absurd (newRecords_eq_nil same) emits

/-! ## The other processes -/

theorem kretprobeConnect_tcpFdInfos (c : Consts) (fd : UInt32) (sk : UInt64) (active : Bool)
    (x : Ctx) (s : Maps) (infos : Table UInt64 TcpFdInfo) :
    kretprobeConnect c fd sk active x { s with tcpFdInfos := infos } =
      { kretprobeConnect c fd sk active x s with tcpFdInfos := infos } := by
  unfold kretprobeConnect
  split
  · rfl
  · split
    · rfl
    · split <;> rfl

theorem tcpFdInfos_kretprobeConnect (c : Consts) (fd : UInt32) (sk : UInt64) (active : Bool)
    (x : Ctx) (s : Maps) : (kretprobeConnect c fd sk active x s).tcpFdInfos = s.tcpFdInfos := by
  obtain ⟨out, same⟩ := kretprobeConnect_eq c fd sk active x s
  rw [same]

theorem probeRetSSL_tcpFdInfos (c : Consts) (f : SslFn) (rc : UInt64) (x : Ctx) (s : Maps)
    (infos : Table UInt64 TcpFdInfo) :
    probeRetSSL c f rc x { s with tcpFdInfos := infos } =
      { probeRetSSL c f rc x s with tcpFdInfos := infos } := by
  have args : ∀ t : Maps, Maps.args { t with tcpFdInfos := infos } f = t.args f := by
    intro t
    cases f <;> rfl
  have setArgs : ∀ (t : Maps) args, Maps.setArgs f args { t with tcpFdInfos := infos } =
      { t.setArgs f args with tcpFdInfos := infos } := by
    intro t args
    cases f <;> rfl
  have data : ∀ a, processSSLData f a rc x { s with tcpFdInfos := infos } =
      { processSSLData f a rc x s with tcpFdInfos := infos } := by
    intro a
    unfold processSSLData
    dsimp only
    split <;> rfl
  unfold probeRetSSL
  split
  · rfl
  · dsimp only
    rw [args s]
    split
    · rw [data, args, setArgs]
    · rw [args, setArgs]

theorem tcpFdInfos_probeRetSSL (c : Consts) (f : SslFn) (rc : UInt64) (x : Ctx) (s : Maps) :
    (probeRetSSL c f rc x s).tcpFdInfos = s.tcpFdInfos := by
  unfold probeRetSSL
  split
  · rfl
  · rw [Maps.setArgs_tcpFdInfos]
    split
    case h_1 a _ =>
      obtain ⟨heap, out, eq⟩ := processSSLData_eq f a rc x s
      rw [eq]
    case h_2 => rfl

theorem finishConnect_tcpFdInfos {c : Consts} {fd : TcpFdInfo → UInt32} {active : Bool} {x : Ctx}
    {s : Maps} {infos : Table UInt64 TcpFdInfo}
    (own : infos.lookup x.task.pidTgid = s.tcpFdInfos.lookup x.task.pidTgid) :
    ∃ infos', finishConnect c fd active x { s with tcpFdInfos := infos } =
        { finishConnect c fd active x s with tcpFdInfos := infos' } ∧
      ∀ k, infos.lookup k = s.tcpFdInfos.lookup k →
        infos'.lookup k = (finishConnect c fd active x s).tcpFdInfos.lookup k := by
  unfold finishConnect
  simp only [own]
  split
  · refine ⟨infos.delete x.task.pidTgid, ?_, ?_⟩
    · split
      · exact kretprobeConnect_tcpFdInfos c _ _ active x
          { s with tcpFdInfos := s.tcpFdInfos.delete x.task.pidTgid } _
      · rfl
    · intro k same
      have deleted : (infos.delete x.task.pidTgid).lookup k =
          (s.tcpFdInfos.delete x.task.pidTgid).lookup k := by
        rw [Table.lookup_delete, Table.lookup_delete, same]
      split
      · rw [tcpFdInfos_kretprobeConnect]
        exact deleted
      · exact deleted
  · exact ⟨infos, rfl, fun k same => same⟩

theorem probeInet_tcpFdInfos {sock : UInt64} {x : Ctx} {s : Maps} {infos : Table UInt64 TcpFdInfo}
    (own : infos.lookup x.task.pidTgid = s.tcpFdInfos.lookup x.task.pidTgid) :
    ∃ infos', probeInet sock x { s with tcpFdInfos := infos } =
        { probeInet sock x s with tcpFdInfos := infos' } ∧
      ∀ k, infos.lookup k = s.tcpFdInfos.lookup k →
        infos'.lookup k = (probeInet sock x s).tcpFdInfos.lookup k := by
  unfold probeInet
  simp only [own]
  split
  case h_1 info found =>
    refine ⟨infos.update x.task.pidTgid { info with sock }, rfl, fun k same => ?_⟩
    rw [Table.lookup_update (Table.hasRoom_of_lookup found),
      Table.lookup_update (Table.hasRoom_of_lookup (own.trans found)), same]
  case h_2 => exact ⟨infos, rfl, fun k same => same⟩

/-- A program uses only its own thread's entry of `tcp_fd_infos`. -/
theorem exec_tcpFdInfos (c : Consts) (off : Offsets) {s : Maps} {e : Event}
    {infos : Table UInt64 TcpFdInfo}
    (own : infos.lookup e.ctx.task.pidTgid = s.tcpFdInfos.lookup e.ctx.task.pidTgid)
    (room : ∀ fd, e.prog = .connect fd →
      infos.HasRoom e.ctx.task.pidTgid ∧ s.tcpFdInfos.HasRoom e.ctx.task.pidTgid) :
    ∃ infos', exec c off { s with tcpFdInfos := infos } e =
        { exec c off s e with tcpFdInfos := infos' } ∧
      ∀ k, infos.lookup k = s.tcpFdInfos.lookup k →
        infos'.lookup k = (exec c off s e).tcpFdInfos.lookup k := by
  obtain ⟨x, prog⟩ := e
  cases prog with
  | entrySSL f ssl buf =>
    refine ⟨infos, ?_, fun k same => ?_⟩
    · simp only [exec, probeEntrySSL]
      cases passesFilter c x.task <;> cases f <;> rfl
    · simp only [exec, probeEntrySSL]
      split
      · exact same
      · rw [Maps.setArgs_tcpFdInfos]
        exact same
  | retSSL f rc =>
    refine ⟨infos, probeRetSSL_tcpFdInfos c f rc x s infos, fun k same => ?_⟩
    change _ = (probeRetSSL c f rc x s).tcpFdInfos.lookup k
    rw [tcpFdInfos_probeRetSSL]
    exact same
  | connect fd =>
    obtain ⟨room, room'⟩ := room fd rfl
    refine ⟨infos.update x.task.pidTgid ⟨0, fd.toUInt32⟩, rfl, fun k same => ?_⟩
    change _ = (s.tcpFdInfos.update x.task.pidTgid ⟨0, fd.toUInt32⟩).lookup k
    rw [Table.lookup_update room, Table.lookup_update room', same]
  | inetStreamConnect sock => exact probeInet_tcpFdInfos own
  | inetAccept newsock => exact probeInet_tcpFdInfos own
  | retConnect => exact finishConnect_tcpFdInfos own
  | retAccept4 rc =>
    simp only [exec, retprobeAccept4]
    split
    · exact ⟨infos, rfl, fun k same => same⟩
    · exact finishConnect_tcpFdInfos own
  | tcpV4DestroySock sk => exact ⟨infos, rfl, fun k same => same⟩
  | setFd ssl fd => exact ⟨infos, rfl, fun k same => same⟩

/-! ## Unwinding -/

/-- The maps are the same for the processes that are not hidden. -/
def SameFor (hidden : UInt32 → Bool) (s t : Maps) : Prop :=
  ∃ infos, t = { s with tcpFdInfos := infos } ∧
    ∀ k : UInt64, hidden (k >>> 32).toUInt32 = false → infos.lookup k = s.tcpFdInfos.lookup k

theorem SameFor.refl (hidden : UInt32 → Bool) (s : Maps) : SameFor hidden s s :=
  ⟨s.tcpFdInfos, rfl, fun _ _ => rfl⟩

theorem SameFor.symm {hidden : UInt32 → Bool} {s t : Maps} (h : SameFor hidden s t) :
    SameFor hidden t s := by
  obtain ⟨infos, rfl, agree⟩ := h
  exact ⟨s.tcpFdInfos, rfl, fun k shown => (agree k shown).symm⟩

theorem unwinding (c : Consts) (off : Offsets) (hidden : UInt32 → Bool) :
    Unwinding
      (fun s e => (hidden e.ctx.task.pid = true → passesFilter c e.ctx.task = false) ∧
        Contained c hidden s e)
      (exec c off) (newRecords c off) (visible hidden) (SameFor hidden) where
  symm := SameFor.symm
  hidden := by
    rintro s t e related unseen ⟨out, contained⟩
    have isHidden : hidden e.ctx.task.pid = true := by simpa [visible] using unseen
    have rejected := out isHidden
    have noDestroy : ∀ sk, e.prog ≠ .tcpV4DestroySock sk := by
      intro sk prog
      simp [Contained, prog, rejected] at contained
    have noFd : ∀ ssl fd, e.prog ≠ .setFd ssl fd := by
      intro ssl fd prog
      simp [Contained, prog, isHidden] at contained
    obtain ⟨infos, same, others⟩ := exec_rejected off s rejected noDestroy noFd
    refine ⟨newRecords_eq_nil same, ?_⟩
    obtain ⟨infos', rfl, agree⟩ := related
    rw [same]
    refine ⟨infos', rfl, fun k shown => ?_⟩
    have other : k ≠ e.ctx.task.pidTgid := by
      rintro rfl
      exact absurd (isHidden.symm.trans shown) (by decide)
    rw [agree k shown]
    exact (others k other).symm
  both := by
    rintro s t e ⟨infos, rfl, agree⟩ seen ⟨-, contained⟩ ⟨-, contained'⟩
    have shown : hidden e.ctx.task.pid = false := by simpa [visible] using seen
    have room : ∀ fd, e.prog = .connect fd →
        infos.HasRoom e.ctx.task.pidTgid ∧ s.tcpFdInfos.HasRoom e.ctx.task.pidTgid := by
      intro fd prog
      simp only [Contained, prog] at contained contained'
      exact ⟨contained' shown, contained shown⟩
    obtain ⟨infos', same, agree'⟩ := exec_tcpFdInfos c off (agree _ shown) room
    refine ⟨?_, infos', same, fun k shown => agree' k (agree k shown)⟩
    simp only [newRecords, same]

/-- In every run that is contained, every record comes from a task that passes the filter; and two
such runs that differ only in the activity of filtered-out processes give the same records and the
same lines. -/
theorem filtered_out_unseen (c : Consts) (off : Offsets) (env : Events.Env) (useHex : Bool)
    {hidden : UInt32 → Bool} {es es' : List Event} (out : FilteredOut c hidden es)
    (out' : FilteredOut c hidden es') (contained : Along (Contained c hidden) (exec c off) .new es)
    (contained' : Along (Contained c hidden) (exec c off) .new es')
    (same : es.filter (visible hidden) = es'.filter (visible hidden)) :
    Along (CausedByAccepted c off) (exec c off) .new es ∧
      recordsOf c off es = recordsOf c off es' ∧
      linesOf c off env useHex es = linesOf c off env useHex es' := by
  have records : recordsOf c off es = recordsOf c off es' :=
    (unwinding c off hidden).observe_eq (.refl hidden .new) (contained.and_forall out)
      (contained'.and_forall out') same
  refine ⟨contained.mono fun s e h => h.causedByAccepted, records, ?_⟩
  unfold linesOf
  rw [records]

/-! ## A socket of another process -/

/-- Only process 1 is traced. -/
def onlyProcess1 : Consts := { Consts.unfiltered with targetPid := 1 }

/-- The first thread of a process. -/
def firstThread (pid : UInt64) : Ctx :=
  { task := { pidTgid := pid <<< 32 ||| pid, uidGid := 0, cgroupId := 0, comm := zeros 16 }
    cpu := 0
    ktime := 1
    mem := ⟨fun _ n => some (Vector.replicate n 65)⟩
    kmem := ⟨fun _ => 0, fun _ => ⟨zeros 4, zeros 4, zeros 2, 0, 0, zeros 16, zeros 16⟩⟩ }

def anyOffsets : Offsets := ⟨some 0, 16, 24, 48, 0, 0⟩

theorem visited_in_order (entries : List (Bytes × Bytes)) : (id entries).Perm entries := .refl _

def plainEnv : Events.Env :=
  { host := ⟨0, 0, fun _ => []⟩
    hk := ⟨fun _ _ _ n => zeros n⟩
    writerOk := fun _ => true
    secretsOrder := ⟨id, visited_in_order⟩ }

/-- Process 1 reads from a TLS connection. -/
def oneRead : List Event :=
  [⟨firstThread 1, .entrySSL .read 0x1000 0x2000⟩, ⟨firstThread 1, .retSSL .read 5⟩]

theorem filtered_out_unseen_connect :
    FilteredOut onlyProcess1 (· == 2) (⟨firstThread 2, .connect 3⟩ :: oneRead) ∧
      recordsOf onlyProcess1 anyOffsets (⟨firstThread 2, .connect 3⟩ :: oneRead) =
        recordsOf onlyProcess1 anyOffsets oneRead := by
  have out : FilteredOut onlyProcess1 (· == 2) (⟨firstThread 2, .connect 3⟩ :: oneRead) := by
    simp only [FilteredOut, oneRead, List.forall_mem_cons]
    decide
  have out' : FilteredOut onlyProcess1 (· == 2) oneRead :=
    fun e mem => out e (List.mem_cons_of_mem _ mem)
  have hidden : (firstThread 2).task.pid = 2 := by decide
  refine ⟨out, (filtered_out_unseen onlyProcess1 anyOffsets plainEnv false out out'
    ⟨?_, trivial, trivial, trivial⟩ ⟨trivial, trivial, trivial⟩ rfl).2.1⟩
  intro shown
  rw [hidden] at shown
  exact absurd shown (by decide)

/-- Process 2 is filtered out, and a socket that it destroys gives a record and a line. -/
theorem destroyed_socket_is_shown :
    onlyProcess1.less52 = 0 ∧ onlyProcess1.FilterSet ∧
    FilteredOut onlyProcess1 (· == 2) [⟨firstThread 2, .tcpV4DestroySock 0x10⟩] ∧
    ¬Along (CausedByAccepted onlyProcess1 anyOffsets) (exec onlyProcess1 anyOffsets) .new
      [⟨firstThread 2, .tcpV4DestroySock 0x10⟩] ∧
    [⟨firstThread 2, .tcpV4DestroySock 0x10⟩].filter (visible (· == 2)) = [] ∧
    linesOf onlyProcess1 anyOffsets plainEnv false [⟨firstThread 2, .tcpV4DestroySock 0x10⟩] =
      [str "PID:0, Comm:, TID:0, FD:0, Tuple: [::]:0->[::]:0\n"] ∧
    linesOf onlyProcess1 anyOffsets plainEnv false [] = [] := by
  refine ⟨rfl, by decide, ?_, ?_, rfl, ?_, rfl⟩
  · simp only [FilteredOut, List.forall_mem_singleton]
    decide
  · intro caused
    have passes := caused.1 (by simp [newRecords, exec, probeTcpV4DestroySock])
    exact absurd passes (by decide)
  · decide +kernel

end ECapture.Kernel.Ssl
