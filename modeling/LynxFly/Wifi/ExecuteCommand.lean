-- SUMMARY: Commands and responses: when each call of WlanExecuteCommand gets its own response.
import LynxFly.Wifi.Threads

/-!
# Commands and responses

`DownloadCommandToStation` makes its command the current one, sends it to the card and waits
for one event. `wlan_process_rx_command`, in `wlan_rx_thread`, applies whatever response is in
`CmdResBuf` and sends the event, as often as `HIS_CmdUpLdRdy` is found in `HisRegCpy`.
-/

open Interleaving Wlan.Threads

namespace ExecuteCommand

def Ok : Event → Prop
  | .returned c processed => ∃ r ∈ processed, Answers r c
  | .applied r awaited => ∀ t c, awaited t = some c → Answers r c

/-- Every return and every application of a response so far was in order. -/
def Paired (s : State) : Prop := ∀ e ∈ s.log, Ok e

/-- `r` answers every command that is waited for. -/
def AnswersAwaited (s : State) (r : HostCmd) : Prop :=
  ∀ t c, (s.pc t).awaited = some c → Answers r c

/-- A response is discarded, or has been asked for. -/
def Applicable (s : State) : Prop := s.CurCmd ≠ none → AnswersAwaited s s.CmdResBuf

/-- Commands are sized, responses applicable, and nobody takes an event that was sent for a
    response from before its command. -/
def Benign (s : State) : Act → Prop
  | .run t =>
    match s.pc t with
    | .download c => c.Size ≠ 0
    | .eventRecv _ => s.cmdwaitevent = true → s.processed t ≠ []
    | _ => True
  | .rx =>
    match s.rx with
    | .process .CmdUpLdRdy => Applicable s
    | .eventSend => ∀ t, s.suspended.head? = some t → s.processed t ≠ []
    | _ => True
  | _ => True

/-- Commands are sized, responses applicable, and no command is made current while there is an
    event that nobody has taken, or one is about to be. -/
def Prompt (s : State) : Act → Prop
  | .run t =>
    match s.pc t with
    | .download c =>
      c.Size ≠ 0 ∧ s.cmdwaitevent = false ∧ ¬ (s.rx = .eventSend ∧ s.suspended = [])
    | _ => True
  | .rx =>
    match s.rx with
    | .process .CmdUpLdRdy => Applicable s
    | _ => True
  | _ => True

/-- Nothing is left of the commands before. -/
def AtRest (s : State) : Prop :=
  s.rx = .eventRecv ∧ s.responses = [] ∧ HisBit.CmdUpLdRdy.isSet s.HisRegCpy = false ∧
    s.cmdwaitevent = false

structure Inv (s : State) : Prop where
  paired : Paired s
  answered : ∀ t c, (s.pc t).awaited = some c → ∀ r ∈ s.processed t, Answers r c

theorem inv_start : Inv start where
  paired e he := by cases he
  answered t c ht := by cases ht

section Steps

variable {s s' : State} {t : ℕ} {c : HostCmd} {pc : Pc} {a : Act}

theorem Inv.congr (h : Inv s) (hcommands : s'.commands = s.commands) : Inv s' := by
  simp only [State.commands, Prod.mk.injEq] at hcommands
  obtain ⟨hpc, hprocessed, hlog, -⟩ := hcommands
  refine ⟨?_, ?_⟩
  · rw [Paired, hlog]
    exact h.paired
  · rw [hpc, hprocessed]
    exact h.answered

/-- A thread goes on to wait for the same command, or for none. -/
theorem awaited_setPc {t' : ℕ} (hpc : ∀ c, pc.awaited = some c → (s.pc t).awaited = some c)
    (ht' : ((s.setPc t pc).pc t').awaited = some c) : (s.pc t').awaited = some c := by
  change (Function.update s.pc t pc t').awaited = some c at ht'
  by_cases htt : t' = t
  · subst htt
    rw [Function.update_self] at ht'
    exact hpc c ht'
  · rw [Function.update_of_ne htt] at ht'
    exact ht'

theorem Inv.setPc (h : Inv s) (hpc : ∀ c, pc.awaited = some c → (s.pc t).awaited = some c) :
    Inv (s.setPc t pc) :=
  ⟨h.paired, fun t' c ht' => h.answered t' c (awaited_setPc hpc ht')⟩

theorem paired_append {e : Event} (h : Paired s) (he : Ok e) : ∀ e' ∈ s.log ++ [e], Ok e' := by
  intro e' he'
  rcases List.mem_append.mp he' with hmem | hmem
  · exact h e' hmem
  · rw [List.mem_singleton] at hmem
    exact hmem ▸ he

/-- What has been processed for a thread answers its command. -/
theorem Inv.receive (h : Inv s) (ht : (s.pc t).awaited = some c) (hne : s.processed t ≠ []) :
    Inv (s.receive t c) := by
  have hok : Ok (.returned c (s.processed t)) := by
    obtain ⟨r, hr⟩ := List.exists_mem_of_ne_nil _ hne
    exact ⟨r, hr, h.answered t c ht r hr⟩
  have hlogged : Inv { s with
      cmdwaitevent := false, log := s.log ++ [Event.returned c (s.processed t)] } :=
    ⟨paired_append h.paired hok, h.answered⟩
  exact hlogged.setPc fun c hc => by cases hc

/-- Nothing has been processed yet for a command that has just become the current one. -/
theorem Inv.download (h : Inv s) (t : ℕ) (c : HostCmd) : Inv (s.download t c) where
  paired := h.paired
  answered t' d ht' := by
    change (Function.update s.pc t (.hostToCard c) t').awaited = some d at ht'
    change ∀ r ∈ Function.update s.processed t [] t', Answers r d
    by_cases htt : t' = t
    · subst htt
      rw [Function.update_self]
      intro r hr
      cases hr
    · rw [Function.update_of_ne htt] at ht' ⊢
      exact h.answered t' d ht'

theorem Inv.wlanProcessRxCommand (h : Inv s) (hok : Applicable s) :
    Inv s.wlanProcessRxCommand := by
  unfold State.wlanProcessRxCommand
  cases hcur : s.CurCmd with
  | none => exact h.congr rfl
  | some d =>
    have happlies := hok (by rw [hcur]; exact Option.some_ne_none d)
    refine ⟨paired_append h.paired happlies, fun t c ht r hr => ?_⟩
    rcases List.mem_append.mp hr with hmem | hmem
    · exact h.answered t c ht r hmem
    · rw [List.mem_singleton] at hmem
      exact hmem ▸ happlies t c ht

theorem run_keep (h : Inv s) (hok : Benign s (.run t)) (hs : s.run t = some s') : Inv s' := by
  cases State.run_cases hs with
  | unsized hpc hsize =>
    simp only [Benign, hpc] at hok
    exact absurd hsize hok
  | downloaded => exact h.download t _
  | @moved pc reg hpc hawaited =>
    have hstored : Inv { s with HisRegCpy := reg } := h.congr rfl
    exact hstored.setPc fun d hd => hawaited ▸ hd
  | received hpc hevent =>
    simp only [Benign, hpc] at hok
    exact h.receive (by rw [hpc]; rfl) (hok hevent)
  | suspended hpc =>
    have hlisted : Inv { s with suspended := s.suspended ++ [t] } := ⟨h.paired, h.answered⟩
    exact hlisted.setPc fun d hd => by
      rw [hpc]
      exact hd

theorem eventSend_keep (h : Inv s)
    (hok : ∀ t, s.suspended.head? = some t → s.processed t ≠ []) (hs : s.eventSend = some s') :
    Inv s' := by
  unfold State.eventSend at hs
  cases hsuspended : s.suspended with
  | nil =>
    simp only [hsuspended] at hs
    cases hs
    exact ⟨h.paired, h.answered⟩
  | cons t ts =>
    simp only [hsuspended] at hs
    split at hs
    case h_1 c hpc =>
      cases hs
      have htaken : Inv { s with suspended := ts, rx := HisBit.CmdUpLdRdy.next } :=
        ⟨h.paired, h.answered⟩
      exact htaken.receive (by rw [hpc]; rfl) (hok t (by rw [hsuspended]; rfl))
    case h_2 => cases hs

theorem step_keep (h : Inv s) (hok : Benign s a) (hs : step s a = some s') : Inv s' := by
  by_cases ha : a.OfThreads
  · cases a with
    | rx =>
      have hrun : s.rxRun = some s' := hs
      by_cases hprocess : s.rx = .process .CmdUpLdRdy
      · simp only [Benign, hprocess] at hok
        simp only [State.rxRun, hprocess] at hrun
        cases hrun
        exact h.wlanProcessRxCommand hok
      by_cases hsend : s.rx = .eventSend
      · simp only [Benign, hsend] at hok
        simp only [State.rxRun, hsend] at hrun
        exact eventSend_keep h hok hrun
      · exact h.congr (State.rxRun_commands hrun hprocess hsend).1
    | run t => exact run_keep h hok hs
    | executeCommand t c =>
      simp only [step] at hs
      split at hs
      case h_1 =>
        cases hs
        exact h.setPc fun d hd => by cases hd
      case h_2 => cases hs
    | _ => cases ha
  · exact h.congr (step_commands hs ha).1

/-! ## What breaks it -/

theorem not_paired {e : Event} (he : ¬ Ok e) (hlog : e ∈ s.log) : ¬ Paired s :=
  fun h => he (h e hlog)

theorem not_ok_returned : ¬ Ok (.returned c []) := by
  rintro ⟨r, hr, -⟩
  cases hr

theorem run_break (hbad : ¬ Benign s (.run t)) (hs : s.run t = some s') : ¬ Paired s' := by
  unfold State.run at hs
  cases hpc : s.pc t with
  | download c =>
    simp only [Benign, hpc, ne_eq, not_not] at hbad
    simp only [hpc, if_pos hbad] at hs
    cases hs
    exact not_paired not_ok_returned (List.mem_append_right s.log (List.mem_singleton_self _))
  | eventRecv c =>
    simp only [Benign, hpc, Classical.not_imp, ne_eq, not_not] at hbad
    obtain ⟨hevent, hnil⟩ := hbad
    simp only [hpc, if_pos hevent] at hs
    cases hs
    refine not_paired (e := .returned c (s.processed t)) ?_
      (List.mem_append_right s.log (List.mem_singleton_self _))
    rw [hnil]
    exact not_ok_returned
  | idle | hostToCard c | load c | store c reg | suspended c | received =>
    simp only [Benign, hpc] at hbad
    exact absurd trivial hbad

theorem benign_rx (hprocess : s.rx ≠ .process .CmdUpLdRdy) (hsend : s.rx ≠ .eventSend) :
    Benign s .rx := by
  simp only [Benign]

theorem step_break (hbad : ¬ Benign s a) (hs : step s a = some s') : ¬ Paired s' := by
  cases a with
  | run t => exact run_break hbad hs
  | rx =>
    have hrun : s.rxRun = some s' := hs
    by_cases hprocess : s.rx = .process .CmdUpLdRdy
    · simp only [Benign, hprocess, Applicable, Classical.not_imp] at hbad
      obtain ⟨hcur, hwrong⟩ := hbad
      obtain ⟨d, hd⟩ := Option.ne_none_iff_exists'.mp hcur
      simp only [State.rxRun, hprocess, State.wlanProcessRxCommand, hd] at hrun
      cases hrun
      exact not_paired (e := .applied s.CmdResBuf fun t => (s.pc t).awaited) hwrong
        (List.mem_append_right s.log (List.mem_singleton_self _))
    by_cases hsend : s.rx = .eventSend
    · simp only [Benign, hsend, not_forall, ne_eq, not_not] at hbad
      obtain ⟨t, hhead, hnil⟩ := hbad
      obtain ⟨ts, hsuspended⟩ := List.head?_eq_some_iff.mp hhead
      simp only [State.rxRun, hsend, State.eventSend, hsuspended] at hrun
      split at hrun
      case h_1 c hpc =>
        cases hrun
        refine not_paired (e := .returned c (s.processed t)) ?_
          (List.mem_append_right s.log (List.mem_singleton_self _))
        rw [hnil]
        exact not_ok_returned
      case h_2 => cases hrun
    · exact absurd (benign_rx hprocess hsend) hbad
  | _ => exact absurd trivial hbad

/-! ## Commands that are made current in time -/

/-- A response has been processed for every command that is waited for. -/
def AllProcessed (s : State) : Prop := ∀ t c, (s.pc t).awaited = some c → s.processed t ≠ []

structure Prompted (s : State) : Prop where
  nodup : s.suspended.Nodup
  queued : ∀ t ∈ s.suspended, ∃ c, s.pc t = .suspended c
  event : s.cmdwaitevent = true → AllProcessed s
  sending : s.rx = .eventSend → s.suspended = [] → AllProcessed s
  head : s.rx = .eventSend → ∀ t, s.suspended.head? = some t → s.processed t ≠ []

theorem Prompted.congr (h : Prompted s) (hcommands : s'.commands = s.commands)
    (hrx : s'.rx = .eventSend → s.rx = .eventSend) : Prompted s' := by
  simp only [State.commands, Prod.mk.injEq] at hcommands
  obtain ⟨hpc, hprocessed, -, hsuspended, hevent⟩ := hcommands
  have hall : AllProcessed s → AllProcessed s' := by
    intro hs
    rw [AllProcessed, hpc, hprocessed]
    exact hs
  refine ⟨?_, ?_, fun he => hall (h.event (hevent ▸ he)),
    fun hr hnil => hall (h.sending (hrx hr) (hsuspended ▸ hnil)), ?_⟩
  · rw [hsuspended]
    exact h.nodup
  · rw [hsuspended, hpc]
    exact h.queued
  · intro hr
    rw [hsuspended, hprocessed]
    exact h.head (hrx hr)

theorem AllProcessed.setPc (h : AllProcessed s)
    (hpc : ∀ c, pc.awaited = some c → (s.pc t).awaited = some c) : AllProcessed (s.setPc t pc) :=
  fun t' c ht' => h t' c (awaited_setPc hpc ht')

theorem queued_update {ts : List ℕ} (h : ∀ t ∈ ts, ∃ c, s.pc t = .suspended c) (ht : t ∉ ts) :
    ∀ t' ∈ ts, ∃ c, Function.update s.pc t pc t' = .suspended c := by
  intro t' ht'
  have htt : t' ≠ t := by
    rintro rfl
    exact ht ht'
  rw [Function.update_of_ne htt]
  exact h t' ht'

/-- A thread that is not suspended is in no queue. -/
theorem Prompted.not_mem (h : Prompted s) (ht : ∀ c, s.pc t ≠ .suspended c) : t ∉ s.suspended :=
  fun hmem => (h.queued t hmem).elim ht

/-- A thread that is not suspended goes on to wait for the same command, or for none. -/
theorem Prompted.setPc (h : Prompted s) (ht : ∀ c, s.pc t ≠ .suspended c)
    (hpc : ∀ c, pc.awaited = some c → (s.pc t).awaited = some c) : Prompted (s.setPc t pc) where
  nodup := h.nodup
  queued := queued_update h.queued (h.not_mem ht)
  event he := (h.event he).setPc hpc
  sending hrx hnil := (h.sending hrx hnil).setPc hpc
  head := h.head

/-- A command is made current where no event could reach its thread. -/
theorem Prompted.download (h : Prompted s) (ht : s.pc t = .download c)
    (hevent : s.cmdwaitevent = false) (hsend : ¬ (s.rx = .eventSend ∧ s.suspended = [])) :
    Prompted (s.download t c) := by
  have hmem : t ∉ s.suspended := h.not_mem fun d hd => by
    rw [ht] at hd
    cases hd
  refine ⟨h.nodup, queued_update h.queued hmem, fun he => ?_, fun hrx hnil => ?_,
    fun hrx t' ht' => ?_⟩
  · have he' : s.cmdwaitevent = true := he
    rw [hevent] at he'
    cases he'
  · exact absurd ⟨hrx, hnil⟩ hsend
  · have htt : t' ≠ t := by
      rintro rfl
      exact hmem (List.mem_of_mem_head? ht')
    change Function.update s.processed t [] t' ≠ []
    rw [Function.update_of_ne htt]
    exact h.head hrx t' ht'

/-- A thread joins the queue. If it is the first there, its response has been processed. -/
theorem Prompted.suspend (h : Prompted s) (ht : s.pc t = .eventRecv c) :
    Prompted ({ s with suspended := s.suspended ++ [t] }.setPc t (.suspended c)) := by
  have hmem : t ∉ s.suspended := h.not_mem fun d hd => by
    rw [ht] at hd
    cases hd
  have hpc : ∀ d, (Pc.suspended c).awaited = some d → (s.pc t).awaited = some d := by
    intro d hd
    rw [ht]
    exact hd
  refine ⟨?_, fun t' ht' => ?_, fun he => (h.event he).setPc hpc, fun _ hnil => ?_,
    fun hrx t' ht' => ?_⟩
  · refine List.nodup_append.mpr ⟨h.nodup, List.pairwise_singleton _ t, fun t₁ ht₁ t₂ ht₂ htt => ?_⟩
    rw [List.mem_singleton] at ht₂
    exact hmem (ht₂ ▸ htt ▸ ht₁)
  · rcases List.mem_append.mp ht' with hold | hnew
    · exact queued_update h.queued hmem t' hold
    · rw [List.mem_singleton] at hnew
      subst hnew
      exact ⟨c, Function.update_self ..⟩
  · exact absurd hnil (List.append_ne_nil_of_right_ne_nil _ (List.cons_ne_nil t []))
  · change (s.suspended ++ [t]).head? = some t' at ht'
    change s.processed t' ≠ []
    cases hsuspended : s.suspended with
    | nil =>
      rw [hsuspended] at ht'
      cases ht'
      exact h.sending hrx hsuspended t c (by rw [ht]; rfl)
    | cons t₁ ts =>
      rw [hsuspended] at ht'
      cases ht'
      exact h.head hrx t' (by rw [hsuspended]; rfl)

/-- Once a response is applied, one has been processed for everybody. -/
theorem Prompted.wlanProcessRxCommand (h : Prompted s) : Prompted s.wlanProcessRxCommand := by
  unfold State.wlanProcessRxCommand
  cases s.CurCmd with
  | none => exact h.congr rfl fun hrx => by cases hrx
  | some d =>
    have hprocessed : ∀ t, s.processed t ++ [s.CmdResBuf] ≠ [] := fun t =>
      List.append_ne_nil_of_right_ne_nil _ (List.cons_ne_nil _ [])
    exact ⟨h.nodup, h.queued, fun _ t _ _ => hprocessed t, fun _ _ t _ _ => hprocessed t,
      fun _ t _ => hprocessed t⟩

/-- `wlan_rx_thread` is on its way to process a response. -/
def Uploaded : RxPc → Prop
  | .load (.or ireg) => HisBit.CmdUpLdRdy.isSet ireg = true
  | .load (.clear bit) | .process bit => bit = .CmdUpLdRdy
  | .store a reg => a = .clear .CmdUpLdRdy ∨ HisBit.CmdUpLdRdy.isSet reg = true
  | _ => False

/-- What is in `CmdResBuf` may still be processed. -/
def Pending (s : State) : Prop := HisBit.CmdUpLdRdy.isSet s.HisRegCpy = true ∨ Uploaded s.rx

structure Matched (s : State) : Prop where
  responses : ∀ r ∈ s.responses, AnswersAwaited s r
  CmdResBuf : Pending s → AnswersAwaited s s.CmdResBuf

/-- Nobody begins to wait, and nothing new is on its way. -/
theorem Matched.mono (h : Matched s)
    (hpc : ∀ t c, (s'.pc t).awaited = some c → (s.pc t).awaited = some c)
    (hresponses : s'.responses = s.responses) (hbuf : s'.CmdResBuf = s.CmdResBuf)
    (hpending : Pending s' → Pending s) : Matched s' where
  responses r hr t c ht := h.responses r (hresponses ▸ hr) t c (hpc t c ht)
  CmdResBuf hp t c ht := hbuf ▸ h.CmdResBuf (hpending hp) t c (hpc t c ht)

/-- A command is made current at rest: nothing is on its way. -/
theorem Matched.download (hrest : AtRest s) (t : ℕ) (c : HostCmd) : Matched (s.download t c) := by
  obtain ⟨hrx, hresponses, hreg, -⟩ := hrest
  refine ⟨fun r hr => ?_, fun hp => ?_⟩
  · change r ∈ s.responses at hr
    rw [hresponses] at hr
    cases hr
  · have hno : ¬ Uploaded s.rx := by
      rw [hrx]
      exact id
    have hset : HisBit.CmdUpLdRdy.isSet s.HisRegCpy = true :=
      Or.resolve_right hp hno
    rw [hreg] at hset
    cases hset

theorem Matched.setPc (h : Matched s)
    (hpc : ∀ c, pc.awaited = some c → (s.pc t).awaited = some c) : Matched (s.setPc t pc) :=
  h.mono (fun _ _ ht => awaited_setPc hpc ht) rfl rfl id

end Steps

/-- A command of the type of `HostCmd_CMD_802_11_SCAN`. -/
def scanCommand : HostCmd := ⟨0x0006, 32, 2, 0⟩

/-- The card answers once. The thread loads `HisRegCpy` before `wlan_rx_thread` clears the bit
    of the response, and stores it after; an event of the card then has the response applied
    to the next command. -/
example : ¬ Throughout step Paired start ([.executeCommand 0 scanCommand, .run 0, .run 0,
    .respond ⟨0x8006, 32, 2, 0⟩, .interrupt 0x10, .rx, .cmdToHost, .rx, .rx, .run 0] ++
      List.replicate 4 .rx ++ [.run 0] ++ List.replicate 3 .rx ++ [.run 0, .run 0,
        .executeCommand 0 ⟨0x0028, 8, 3, 0⟩, .run 0, .interrupt 0x08] ++ List.replicate 8 .rx) := by
  intro h
  have hpaired := h.exec rfl
  have hanswers : Answers ⟨0x8006, 32, 2, 0⟩ ⟨0x0028, 8, 3, 0⟩ :=
    hpaired (.applied ⟨0x8006, 32, 2, 0⟩ _) (.tail _ (.tail _ (.head _))) 0 _ rfl
  exact absurd hanswers (by decide)

end ExecuteCommand
