import InventoryBot.Menu.BotView
import InventoryBot.Menu.Runs

/-!
# The life of a window

The script of the window keeps no state of its own about what it waits for: it disables its
buttons, and every handler makes at most one call. `Session` says what a window should do, from
the look-up of its context to any number of operations; the script refines it.

* `Session`: what happens in a window until it stands somewhere.
* `Lives`: a window of the script that stands there, with a call under way or its answer.
* `DesktopStep.lives`: every step of any window keeps that.
* `operations_follow_clicks`: what can be relied on about every window.
-/

namespace InventoryBot.Menu

open Lib

/-! ## The life of a window -/

/-- Where a window stands. -/
inductive Phase where
  | opening (disabled : Bool)
  | resolving (parameters : UrlParameters)
  | listing (contextParams : ContextParams)
  | ready (contextParams : ContextParams)
  | validating (contextParams : ContextParams) (operation : Operation)
  | operating (contextParams : ContextParams) (operation : Operation)
  | stuck

namespace Phase

/-- The call that the window waits for. -/
def call : Phase → Option Call
  | resolving parameters => some (.getContextParams parameters)
  | listing contextParams => some (.getAccountsToCalculate contextParams)
  | validating _ operation => some (.validate operation)
  | operating contextParams operation => some (.fire operation (some contextParams))
  | opening _ | ready _ | stuck => none

/-- The buttons are disabled. -/
def disabled : Phase → Bool
  | opening disabled => disabled
  | ready _ => false
  | _ => true

/-- The URL of the window is known. -/
def located : Phase → Bool
  | opening _ => false
  | _ => true

/-- The context that the window works in. -/
def contextParams : Phase → Option ContextParams
  | listing contextParams | ready contextParams => some contextParams
  | validating contextParams _ | operating contextParams _ => some contextParams
  | opening _ | resolving _ | stuck => none

/-- Where the answer to its call takes a window. -/
def next : Phase → Answer → Phase
  | resolving _, ⟨.getContextParams _, .ok contextParams⟩ => listing contextParams
  | listing contextParams, ⟨.getAccountsToCalculate _, .ok _⟩ => ready contextParams
  | validating contextParams operation, ⟨.validate _, .ok _⟩ => operating contextParams operation
  | operating contextParams _, ⟨.fire _ _, .ok _⟩ => ready contextParams
  | _, _ => stuck

end Phase

/-- What happens in a window until it stands somewhere: it looks up its context and the accounts of
    the context; then every click is validated once and, if no task is pending, carried out once in
    that context. With the first call that fails it is over. -/
inductive Session : List Entry → Phase → Prop
  | opened : Session [] (.opening false)
  | early {log : List Entry} (operation : Operation) (h : Session log (.opening false)) :
      Session (log ++ [.clicked operation]) (.opening true)
  | located {log : List Entry} {disabled : Bool} (parameters : UrlParameters)
      (h : Session log (.opening disabled)) : Session log (.resolving parameters)
  | resolved {log : List Entry} {parameters : UrlParameters} (backlog : ℕ)
      (contextParams : ContextParams) (h : Session log (.resolving parameters)) :
      Session (log ++ [.served backlog ⟨.getContextParams parameters, .ok contextParams⟩])
        (.listing contextParams)
  | listed {log : List Entry} {contextParams : ContextParams} (backlog : ℕ)
      (accounts : List (String × String)) (h : Session log (.listing contextParams)) :
      Session (log ++ [.served backlog ⟨.getAccountsToCalculate contextParams, .ok accounts⟩])
        (.ready contextParams)
  | clicked {log : List Entry} {contextParams : ContextParams} (operation : Operation)
      (h : Session log (.ready contextParams)) :
      Session (log ++ [.clicked operation]) (.validating contextParams operation)
  | validated {log : List Entry} {contextParams : ContextParams} {operation : Operation}
      (h : Session log (.validating contextParams operation)) :
      Session (log ++ [.served 0 ⟨.validate operation, .ok ()⟩])
        (.operating contextParams operation)
  | operated {log : List Entry} {contextParams : ContextParams} {operation : Operation}
      (backlog : ℕ) (results : List (String × String))
      (h : Session log (.operating contextParams operation)) :
      Session (log ++ [.served backlog ⟨.fire operation (some contextParams), .ok results⟩])
        (.ready contextParams)
  | failed {log : List Entry} {phase : Phase} {call : Call} (backlog : ℕ) (error : Bot.Thrown)
      (h : Session log phase) (hcall : phase.call = some call) :
      Session (log ++ [.served backlog ⟨call, .error error⟩]) .stuck

/-- The list that an entry puts into the window. -/
def Entry.list : Entry → Option (List String)
  | .served _ ⟨.getAccountsToCalculate _, .ok accounts⟩ => some (accounts.map Window.accountEntry)
  | .served _ ⟨.fire _ _, .ok results⟩ => some (results.map Window.resultEntry)
  | _ => none

/-- The error that an entry alerts the user of. -/
def Entry.alert : Entry → Option Bot.Thrown
  | .served _ ⟨.validate _, .error error⟩ | .served _ ⟨.fire _ _, .error error⟩ => some error
  | _ => none

/-- The list that a window should show: that of the last answer. -/
def shown (log : List Entry) : List String := (log.reverse.findSome? Entry.list).getD []

/-- The errors that the user should be alerted of. -/
def alerted (log : List Entry) : List Bot.Thrown := log.filterMap Entry.alert

section Entries

variable {log : List Entry} {entry : Entry}

theorem shown_of_some {list : List String} (h : entry.list = some list) :
    shown (log ++ [entry]) = list := by
  simp [shown, h]

theorem shown_of_none (h : entry.list = none) : shown (log ++ [entry]) = shown log := by
  simp [shown, h]

theorem alerted_of_some {error : Bot.Thrown} (h : entry.alert = some error) :
    alerted (log ++ [entry]) = alerted log ++ [error] := by
  simp [alerted, h]

theorem alerted_of_none (h : entry.alert = none) : alerted (log ++ [entry]) = alerted log := by
  simp [alerted, h]

end Entries

/-- The answer to its call takes a session on. -/
theorem Session.answered {log : List Entry} {phase : Phase} {backlog : ℕ} {answer : Answer}
    (h : Session log phase) (hcall : phase.call = some answer.call)
    (hvalid : ∀ operation, answer = ⟨.validate operation, .ok ()⟩ → backlog = 0) :
    Session (log ++ [.served backlog answer]) (phase.next answer) := by
  obtain ⟨call, reply⟩ := answer
  cases reply with
  | error error =>
    have hnext : phase.next ⟨call, .error error⟩ = .stuck := by
      cases phase <;> cases call <;> rfl
    rw [hnext]
    exact h.failed backlog error hcall
  | ok reply =>
    cases phase with
    | opening | ready | stuck => cases hcall
    | resolving parameters =>
      cases hcall
      exact h.resolved backlog reply
    | listing contextParams =>
      cases hcall
      exact h.listed backlog reply
    | validating contextParams operation =>
      cases hcall
      obtain rfl : backlog = 0 := hvalid operation rfl
      exact h.validated
    | operating contextParams operation =>
      cases hcall
      exact h.operated backlog reply

/-- Before the list of accounts arrives there is nothing to show. -/
theorem Session.shown_eq_nil {log : List Entry} {phase : Phase} (h : Session log phase)
    (hearly : phase.contextParams = none ∨ ∃ c, phase = .listing c) (hstuck : phase ≠ .stuck) :
    shown log = [] := by
  induction h with
  | opened => rfl
  | early operation _ ih => exact (shown_of_none rfl).trans (ih (.inl rfl) (by simp))
  | located parameters _ ih => exact ih (.inl rfl) (by simp)
  | resolved backlog contextParams _ ih => exact (shown_of_none rfl).trans (ih (.inl rfl) (by simp))
  | failed => exact absurd rfl hstuck
  | listed | clicked | validated | operated =>
    rcases hearly with hnone | ⟨c, hc⟩
    · cases hnone
    · cases hc

/-! ## The script lives this life -/

/-- The script of a window that stands somewhere. -/
structure Phase.Fits (phase : Phase) (w : Window) (log : List Entry) : Prop where
  disabled : w.disabled = phase.disabled
  located : w.located = phase.located
  contextParams : phase ≠ .stuck → w.contextParams = phase.contextParams
  accountList : w.accountList = shown log
  alerts : w.alerts = alerted log

/-- What happened in a window, and what is under way: at most one call, or its answer. -/
inductive Lives (w : Window) : List Entry → Prop
  | settled {log : List Entry} {phase : Phase} (h : Session log phase) (hfits : phase.Fits w log)
      (hcall : phase.call = none) (hsent : w.sent = []) (hanswered : w.answered = []) : Lives w log
  | waiting {log : List Entry} {phase : Phase} {call : Call} (h : Session log phase)
      (hfits : phase.Fits w log) (hcall : phase.call = some call) (hsent : w.sent = [call])
      (hanswered : w.answered = []) : Lives w log
  | answered {log : List Entry} {phase : Phase} {backlog : ℕ} {answer : Answer}
      (h : Session log phase) (hfits : phase.Fits w log) (hcall : phase.call = some answer.call)
      (hvalid : ∀ operation, answer = ⟨.validate operation, .ok ()⟩ → backlog = 0)
      (hsent : w.sent = []) (hanswered : w.answered = [answer]) :
      Lives w (log ++ [.served backlog answer])

section Lives

variable {w : Window} {log : List Entry} {phase : Phase}

/-- A window that waits is disabled, and its URL is known. -/
theorem Phase.waits {call : Call} (h : phase.call = some call) :
    phase.disabled = true ∧ phase.located = true ∧ phase ≠ .stuck := by
  cases phase with
  | opening | ready | stuck => cases h
  | resolving | listing | validating | operating => exact ⟨rfl, rfl, by simp⟩

theorem Lives.of_call (h : Session log phase) (hfits : phase.Fits w log)
    (hsent : w.sent = phase.call.toList) (hanswered : w.answered = []) : Lives w log := by
  cases hcall : phase.call with
  | none => exact .settled h hfits hcall (by simpa [hcall] using hsent) hanswered
  | some call => exact .waiting h hfits hcall (by simpa [hcall] using hsent) hanswered

/-- The handler of an answer does what the session goes on with. -/
theorem Phase.Fits.receive {backlog : ℕ} {answer : Answer} (h : Session log phase)
    (hfits : phase.Fits w log) (hcall : phase.call = some answer.call) (hsent : w.sent = [])
    (hanswered : w.answered = []) :
    (phase.next answer).Fits (w.receive answer) (log ++ [.served backlog answer]) ∧
      (w.receive answer).sent = (phase.next answer).call.toList ∧
      (w.receive answer).answered = [] := by
  obtain ⟨hdisabled, hlocated, hstuck⟩ := Phase.waits hcall
  have hd := hfits.disabled.trans hdisabled
  have hl := hfits.located.trans hlocated
  have hc := hfits.contextParams hstuck
  obtain ⟨call, reply⟩ := answer
  -- most entries put no list into the window and alert of nothing
  have hlist : ∀ {reply}, (Entry.served backlog ⟨call, reply⟩).list = none →
      w.accountList = shown (log ++ [.served backlog ⟨call, reply⟩]) := fun hnone =>
    hfits.accountList.trans (shown_of_none hnone).symm
  have halerts : ∀ {reply}, (Entry.served backlog ⟨call, reply⟩).alert = none →
      w.alerts = alerted (log ++ [.served backlog ⟨call, reply⟩]) := fun hnone =>
    hfits.alerts.trans (alerted_of_none hnone).symm
  have halerted : ∀ {error}, (Entry.served backlog ⟨call, .error error⟩).alert = some error →
      w.alerts ++ [error] = alerted (log ++ [.served backlog ⟨call, .error error⟩]) :=
    fun hsome => hfits.alerts ▸ (alerted_of_some hsome).symm
  cases phase with
  | opening | ready | stuck => cases hcall
  | resolving parameters =>
    cases hcall
    cases reply with
    | error error =>
      exact ⟨⟨hd, hl, fun hne => absurd rfl hne, hlist rfl, halerts rfl⟩, hsent, hanswered⟩
    | ok params =>
      refine ⟨⟨hd, hl, fun _ => rfl, hlist rfl, halerts rfl⟩, ?_, hanswered⟩
      show w.sent ++ [_] = _
      rw [hsent]
      rfl
  | listing contextParams =>
    cases hcall
    have hnil := h.shown_eq_nil (.inr ⟨_, rfl⟩) hstuck
    cases reply with
    | error error =>
      exact ⟨⟨hd, hl, fun hne => absurd rfl hne, hlist rfl, halerts rfl⟩, hsent, hanswered⟩
    | ok accounts =>
      refine ⟨⟨rfl, hl, fun _ => hc, ?_, halerts rfl⟩, hsent, hanswered⟩
      show w.accountList ++ accounts.map Window.accountEntry = _
      rw [hfits.accountList, hnil, shown_of_some rfl]
      rfl
  | validating contextParams operation =>
    cases hcall
    cases reply with
    | error error =>
      exact ⟨⟨hd, hl, fun hne => absurd rfl hne, hlist rfl, halerted rfl⟩, hsent, hanswered⟩
    | ok reply =>
      refine ⟨⟨hd, hl, fun _ => hc, hlist rfl, halerts rfl⟩, ?_, hanswered⟩
      show w.sent ++ [Call.fire operation w.contextParams] = _
      rw [hsent, hc]
      rfl
  | operating contextParams operation =>
    cases hcall
    cases reply with
    | error error =>
      exact ⟨⟨hd, hl, fun hne => absurd rfl hne, hlist rfl, halerted rfl⟩, hsent, hanswered⟩
    | ok results =>
      exact ⟨⟨rfl, hl, fun _ => hc, (shown_of_some rfl).symm, halerts rfl⟩, hsent, hanswered⟩

/-- The window gets to know its URL. -/
theorem Lives.loadTemplate (h : Lives w log) (hfirst : w.located = false)
    (parameters : UrlParameters) : Lives (w.loadTemplate parameters) log := by
  cases h with
  | @settled _ phase h hfits hcall hsent hanswered =>
    cases phase with
    | opening disabled =>
      refine .of_call (h.located parameters)
        ⟨rfl, rfl, fun _ => hfits.contextParams (by simp), hfits.accountList, hfits.alerts⟩ ?_
        hanswered
      show w.sent ++ [_] = _
      rw [hsent]
      rfl
    | _ => exact absurd (hfits.located.symm.trans hfirst) (by simp [Phase.located])
  | waiting h hfits hcall | answered h hfits hcall =>
    exact absurd (hfits.located.symm.trans hfirst) (by simp [(Phase.waits hcall).2.1])

/-- A button is clicked. -/
theorem Lives.start (h : Lives w log) (henabled : w.disabled = false) (operation : Operation) :
    Lives (w.start operation) (log ++ [.clicked operation]) := by
  cases h with
  | @settled _ phase h hfits hcall hsent hanswered =>
    have henabled' := hfits.disabled.symm.trans henabled
    have hlist : w.accountList = shown (log ++ [Entry.clicked operation]) :=
      hfits.accountList.trans (shown_of_none rfl).symm
    have halerts : w.alerts = alerted (log ++ [Entry.clicked operation]) :=
      hfits.alerts.trans (alerted_of_none rfl).symm
    cases phase with
    | opening disabled =>
      obtain rfl : disabled = false := henabled'
      have hnone : w.contextParams = none := hfits.contextParams (by simp)
      have hstart : w.start operation = w.disableButtons true := by
        unfold Window.start Window.disableButtons
        simp [hnone]
      rw [hstart]
      exact .of_call (h.early operation)
        ⟨rfl, hfits.located, fun _ => hnone, hlist, halerts⟩ hsent hanswered
    | ready contextParams =>
      have hsome : w.contextParams = some contextParams := hfits.contextParams (by simp)
      have hstart : w.start operation = (w.disableButtons true).run (.validate operation) := by
        unfold Window.start Window.disableButtons
        simp [hsome]
      rw [hstart]
      refine .of_call (h.clicked operation)
        ⟨rfl, hfits.located, fun _ => hsome, hlist, halerts⟩ ?_ hanswered
      show w.sent ++ [_] = _
      rw [hsent]
      rfl
    | _ => cases henabled'
  | waiting h hfits hcall | answered h hfits hcall =>
    exact absurd (hfits.disabled.symm.trans henabled) (by simp [(Phase.waits hcall).1])

end Lives

/-- A validation passes only while no task is pending. -/
theorem Bot.validate_eq_ok {collection : Option (List BookInfo)} {server : Server}
    (h : Bot.validate collection server = .ok ()) : server.backlog = 0 := by
  unfold Bot.validate BotService.hasPendingTasks at h
  split at h
  · cases h
  · split at h
    · cases h
    · rename_i hnone
      simpa using hnone

section Runs

variable {ι : Type} [DecidableEq ι] {P : Platform} {localeCompare : String → String → ℤ}
  {collection : Option (List BookInfo)} {d d' : Desktop ι}

/-- What happens in one window leaves the lives of the others as they are. -/
theorem Desktop.act_lives {i : ι} {w : Window} {happened : List Entry}
    (hothers : ∀ j, Lives (d.window j) (d.log j)) (h : Lives w (d.log i ++ happened)) (j : ι) :
    Lives ((d.act i w happened).window j) ((d.act i w happened).log j) := by
  by_cases hj : j = i
  · subst hj
    simpa [Desktop.act] using h
  · simpa [Desktop.act, Function.update_of_ne hj] using hothers j

/-- A call that the server serves was the only one under way. -/
theorem Lives.serve {w : Window} {log : List Entry} {before after : List Call} {answer : Answer}
    {backlog : ℕ} (h : Lives w log) (hsent : w.sent = before ++ answer.call :: after)
    (hvalid : ∀ operation, answer = ⟨.validate operation, .ok ()⟩ → backlog = 0) :
    Lives { w with sent := before ++ after, answered := w.answered ++ [answer] }
      (log ++ [.served backlog answer]) := by
  cases h with
  | settled h hfits hcall hnone => simp [hnone] at hsent
  | answered h hfits hcall _ hnone => simp [hnone] at hsent
  | @waiting _ phase call h hfits hcall hone hanswered =>
    rw [hone] at hsent
    obtain ⟨rfl, rfl, rfl⟩ : before = [] ∧ call = answer.call ∧ after = [] := by
      cases before with
      | nil =>
        obtain ⟨hcall, hafter⟩ := List.cons.inj hsent
        exact ⟨rfl, hcall, hafter.symm⟩
      | cons c before => simp at hsent
    exact .answered h
      ⟨hfits.disabled, hfits.located, hfits.contextParams, hfits.accountList, hfits.alerts⟩
      hcall hvalid rfl (by simp [hanswered])

/-- The handler of an answer that has arrived. -/
theorem Lives.receive {w : Window} {log : List Entry} {before after : List Answer} {answer : Answer}
    (h : Lives w log) (hanswered : w.answered = before ++ answer :: after) :
    Lives (({ w with answered := before ++ after } : Window).receive answer) log := by
  cases h with
  | settled h hfits hcall _ hnone => simp [hnone] at hanswered
  | waiting h hfits hcall _ hnone => simp [hnone] at hanswered
  | @answered log phase backlog answer' h hfits hcall hvalid hsent hone =>
    rw [hone] at hanswered
    obtain ⟨rfl, rfl, rfl⟩ : before = [] ∧ answer' = answer ∧ after = [] := by
      cases before with
      | nil =>
        obtain ⟨hanswer, hafter⟩ := List.cons.inj hanswered
        exact ⟨rfl, hanswer, hafter.symm⟩
      | cons a before => simp at hanswered
    have hfits' : phase.Fits { w with answered := [] } log :=
      ⟨hfits.disabled, hfits.located, hfits.contextParams, hfits.accountList, hfits.alerts⟩
    obtain ⟨hnext, hcall', hnone⟩ := hfits'.receive h hcall hsent rfl
    exact .of_call (h.answered hcall hvalid) hnext hcall' hnone

/-- Whatever happens, every window goes on with its life. -/
theorem DesktopStep.lives (h : DesktopStep P localeCompare collection d d')
    (hlives : ∀ i, Lives (d.window i) (d.log i)) : ∀ i, Lives (d'.window i) (d'.log i) := by
  cases h with
  | located i parameters hfirst =>
    refine Desktop.act_lives hlives ?_
    rw [List.append_nil]
    exact (hlives i).loadTemplate hfirst parameters
  | clicked i operation henabled =>
    exact Desktop.act_lives hlives ((hlives i).start henabled operation)
  | @served i env before after call hsent =>
    refine fun j => Desktop.act_lives hlives ((hlives i).serve hsent ?_) j
    intro operation hanswer
    obtain ⟨rfl, hreply⟩ := Answer.mk.inj hanswer
    exact Bot.validate_eq_ok (eq_of_heq hreply)
  | answered i hanswered =>
    refine Desktop.act_lives hlives ?_
    rw [List.append_nil]
    exact (hlives i).receive hanswered
  | changed server => exact hlives

/-- A window that opens. -/
theorem lives_opened : Lives {} [] :=
  .settled .opened ⟨rfl, rfl, fun _ => rfl, rfl, rfl⟩ rfl rfl rfl

theorem lives_of_steps {server : Server}
    (h : Relation.ReflTransGen (DesktopStep P localeCompare collection) { server := server } d) :
    ∀ i : ι, Lives (d.window i) (d.log i) := by
  induction h with
  | refl => exact fun _ => lives_opened
  | tail _ hstep ih => exact hstep.lives ih

end Runs

/-! ## What such a life is like -/

section Session

variable {log : List Entry} {phase : Phase}

/-- A call failed. -/
def Entry.failed : Entry → Bool
  | .served _ ⟨_, .error _⟩ => true
  | _ => false

/-- Nothing happens after a failure. -/
theorem Session.failed_last (h : Session log phase) :
    (∀ entry ∈ log.dropLast, entry.failed = false) ∧
      (phase ≠ .stuck → ∀ entry ∈ log, entry.failed = false) := by
  have happend : ∀ {log : List Entry} {entry : Entry}, (∀ e ∈ log, e.failed = false) →
      entry.failed = false → (∀ e ∈ (log ++ [entry]).dropLast, e.failed = false) ∧
        ∀ e ∈ log ++ [entry], e.failed = false := by
    intro log entry hlog hentry
    refine ⟨by simpa using hlog, fun e he => ?_⟩
    rcases List.mem_append.1 he with he | he
    · exact hlog e he
    · exact List.mem_singleton.1 he ▸ hentry
  induction h with
  | opened => exact ⟨by simp, by simp⟩
  | located parameters h ih => exact ⟨ih.1, fun _ => ih.2 (by simp)⟩
  | failed backlog error h hcall ih =>
    exact ⟨by simpa using ih.2 (Phase.waits hcall).2.2, fun hne => absurd rfl hne⟩
  | early operation h ih | clicked operation h ih =>
    exact (happend (ih.2 (by simp)) rfl).imp_right fun h _ => h
  | resolved _ _ h ih | listed _ _ h ih | validated h ih | operated _ _ h ih =>
    exact (happend (ih.2 (by simp)) rfl).imp_right fun h _ => h

/-- The context that was looked up for the window. -/
def LookedUp (contextParams : ContextParams) (log : List Entry) : Prop :=
  ∃ backlog parameters, .served backlog ⟨.getContextParams parameters, .ok contextParams⟩ ∈ log

/-- Every operation that the server carried out for a window was clicked there and then validated
    while nothing was pending, and ran in the context of the window. -/
def Ordered (contextParams : ContextParams) (log : List Entry) : Prop :=
  ∀ earlier later backlog operation context reply,
    log = earlier ++ .served backlog ⟨.fire operation context, reply⟩ :: later →
      context = some contextParams ∧ LookedUp contextParams earlier ∧
        ∃ before, earlier = before ++ [.clicked operation, .served 0 ⟨.validate operation, .ok ()⟩]

theorem Ordered.nil (contextParams : ContextParams) : Ordered contextParams [] := by
  intro earlier later backlog operation context reply h
  simp at h

/-- One more entry is in order if it is no operation, or one that is clicked and validated. -/
theorem Ordered.append {contextParams : ContextParams} {entry : Entry}
    (h : Ordered contextParams log)
    (hentry : ∀ backlog operation context reply,
      entry = .served backlog ⟨.fire operation context, reply⟩ →
        context = some contextParams ∧ LookedUp contextParams log ∧
          ∃ before, log = before ++
            [.clicked operation, .served 0 ⟨.validate operation, .ok ()⟩]) :
    Ordered contextParams (log ++ [entry]) := by
  intro earlier later backlog operation context reply hlog
  rcases List.eq_nil_or_concat later with rfl | ⟨later, last, rfl⟩
  · obtain ⟨rfl, hlast⟩ := List.append_inj' hlog rfl
    exact hentry backlog operation context reply (List.singleton_inj.1 hlast)
  · rw [List.concat_eq_append, ← List.cons_append, ← List.append_assoc] at hlog
    obtain ⟨hlog, -⟩ := List.append_inj' hlog rfl
    exact h earlier later backlog operation context reply hlog

/-- The context of a window is the one that was looked up for it. -/
theorem Session.lookedUp {contextParams : ContextParams} (h : Session log phase)
    (hcontext : phase.contextParams = some contextParams) : LookedUp contextParams log := by
  have happend : ∀ {log : List Entry} {entry : Entry}, LookedUp contextParams log →
      LookedUp contextParams (log ++ [entry]) :=
    fun ⟨backlog, parameters, hmem⟩ => ⟨backlog, parameters, List.mem_append_left _ hmem⟩
  induction h with
  | opened | early | located | failed => cases hcontext
  | @resolved log parameters backlog c h ih =>
    obtain rfl : c = contextParams := Option.some.inj hcontext
    exact ⟨backlog, parameters, by simp⟩
  | listed _ _ h ih | clicked _ h ih | validated h ih | operated _ _ h ih =>
    exact happend (ih hcontext)

/-- Where a session stands after a click and after a validation. -/
theorem Session.clicked_last (h : Session log phase) :
    (∀ contextParams operation, phase = .validating contextParams operation →
        ∃ before, log = before ++ [.clicked operation]) ∧
      ∀ contextParams operation, phase = .operating contextParams operation →
        ∃ before, log = before ++
          [.clicked operation, .served 0 ⟨.validate operation, .ok ()⟩] := by
  induction h with
  | @clicked log c operation h ih =>
    refine ⟨?_, by simp⟩
    rintro _ _ ⟨⟩
    exact ⟨log, rfl⟩
  | validated h ih =>
    refine ⟨by simp, ?_⟩
    rintro _ _ ⟨⟩
    obtain ⟨before, rfl⟩ := ih.1 _ _ rfl
    exact ⟨before, by simp⟩
  | _ => exact ⟨by simp, by simp⟩

/-- Before the context is known nothing is carried out, and afterwards all of it in the context. -/
theorem Session.ordered (h : Session log phase) :
    ∃ contextParams, Ordered contextParams log ∧
      (∀ c, phase.contextParams = some c → c = contextParams) ∧
      (phase.contextParams = none → phase ≠ .stuck → ∀ c, Ordered c log) := by
  induction h with
  | opened => exact ⟨{}, .nil _, by simp [Phase.contextParams], fun _ _ c => .nil c⟩
  | located parameters h ih =>
    obtain ⟨c, hordered, -, hany⟩ := ih
    exact ⟨c, hordered, by simp [Phase.contextParams], fun _ _ => hany rfl (by simp)⟩
  | early operation h ih =>
    obtain ⟨c, hordered, -, hany⟩ := ih
    exact ⟨c, hordered.append (by simp), by simp [Phase.contextParams],
      fun _ _ c => (hany rfl (by simp) c).append (by simp)⟩
  | resolved backlog c h ih =>
    obtain ⟨-, -, -, hany⟩ := ih
    refine ⟨c, (hany rfl (by simp) c).append (by simp), ?_, by simp [Phase.contextParams]⟩
    rintro _ ⟨⟩
    rfl
  | listed _ _ h ih | clicked _ h ih | validated h ih =>
    obtain ⟨c, hordered, hcontext, -⟩ := ih
    exact ⟨c, hordered.append (by simp), hcontext, by simp [Phase.contextParams]⟩
  | @operated log contextParams operation backlog results h ih =>
    obtain ⟨c, hordered, hcontext, -⟩ := ih
    obtain rfl : contextParams = c := hcontext _ rfl
    refine ⟨contextParams, hordered.append ?_, hcontext, by simp [Phase.contextParams]⟩
    rintro _ _ _ _ ⟨⟩
    exact ⟨rfl, h.lookedUp rfl, h.clicked_last.2 _ _ rfl⟩
  | @failed log phase call backlog error h hcall ih =>
    obtain ⟨c, hordered, hcontext, -⟩ := ih
    refine ⟨c, hordered.append ?_, by simp [Phase.contextParams], by simp⟩
    rintro _ _ _ _ ⟨⟩
    cases phase with
    | operating contextParams operation =>
      cases hcall
      obtain rfl : contextParams = c := hcontext _ rfl
      exact ⟨rfl, h.lookedUp rfl, h.clicked_last.2 _ _ rfl⟩
    | _ => cases hcall

/-- A session is stuck only by a failure. -/
theorem Session.failed_of_stuck (h : Session log phase) (hstuck : phase = .stuck) :
    ∃ entry ∈ log, entry.failed = true := by
  cases h with
  | failed backlog error => exact ⟨_, List.mem_concat_self, rfl⟩
  | _ => cases hstuck

end Session

theorem Lives.session {w : Window} {log : List Entry} (h : Lives w log) :
    ∃ phase, Session log phase := by
  cases h with
  | settled h | waiting h => exact ⟨_, h⟩
  | answered h hfits hcall hvalid => exact ⟨_, h.answered hcall hvalid⟩

/-- What can be relied on about a window and what happened in it. -/
structure InOrder (w : Window) (log : List Entry) : Prop where
  /-- at most one call is under way -/
  single : w.sent.length + w.answered.length ≤ 1
  /-- while it is, nothing can be clicked -/
  blocked : w.sent ≠ [] ∨ w.answered ≠ [] → w.disabled = true
  /-- an operation follows its own click and validation -/
  ordered : ∃ contextParams, Ordered contextParams log
  /-- after a failure nothing happens any more, and nothing can be clicked -/
  ends : ∀ earlier later backlog call error,
    log = earlier ++ .served backlog ⟨call, .error error⟩ :: later →
      later = [] ∧ w.disabled = true
  /-- without one, the buttons come back with the last answer -/
  freed : w.sent = [] → w.answered = [] → w.located = true →
    (∀ entry ∈ log, entry.failed = false) → w.disabled = false
  /-- the window shows the last answer, and alerts of every failed validation and operation -/
  shows : w.answered = [] → w.accountList = shown log ∧ w.alerts = alerted log

/-- A window that lives the life of a session is in order. -/
theorem Lives.inOrder {w : Window} {log : List Entry} (hlives : Lives w log) : InOrder w log := by
  obtain ⟨last, hlast⟩ := hlives.session
  refine ⟨?_, ?_, ?_, ?_, ?_, ?_⟩
  · cases hlives with
    | settled _ _ _ hsent hanswered | waiting _ _ _ hsent hanswered
    | answered _ _ _ _ hsent hanswered => simp [hsent, hanswered]
  · intro hunderway
    cases hlives with
    | settled _ _ _ hsent hanswered => simp [hsent, hanswered] at hunderway
    | waiting _ hfits hcall | answered _ hfits hcall =>
      exact hfits.disabled.trans (Phase.waits hcall).1
  · exact hlast.ordered.imp fun _ h => h.1
  · intro earlier later backlog call error hlog
    have hend : later = [] := by
      by_contra hne
      have hmem : Entry.served backlog ⟨call, .error error⟩ ∈ (log).dropLast := by
        rw [hlog, List.dropLast_append_of_ne_nil (List.cons_ne_nil _ _),
          List.dropLast_cons_of_ne_nil hne]
        simp
      exact absurd (hlast.failed_last.1 _ hmem) (by simp [Entry.failed])
    have hmem : Entry.served backlog ⟨call, .error error⟩ ∈ log := by
      rw [hlog]
      simp
    refine ⟨hend, ?_⟩
    cases hlives with
    | @settled _ phase h hfits =>
      by_cases hstuck : phase = .stuck
      · rw [hfits.disabled, hstuck]
        rfl
      · exact absurd (h.failed_last.2 hstuck _ hmem) (by simp [Entry.failed])
    | waiting _ hfits hcall | answered _ hfits hcall =>
      exact hfits.disabled.trans (Phase.waits hcall).1
  · intro hsent hanswered hlocated hfailed
    cases hlives with
    | @settled _ phase h hfits hcall =>
      have hphase := hfits.located.symm.trans hlocated
      cases phase with
      | opening => cases hphase
      | ready => exact hfits.disabled
      | stuck =>
        obtain ⟨entry, hentry, hfail⟩ := h.failed_of_stuck rfl
        rw [hfailed entry hentry] at hfail
        cases hfail
      | _ => cases hcall
    | waiting _ _ _ hone => simp [hone] at hsent
    | answered _ _ _ _ _ hone => simp [hone] at hanswered
  · intro hanswered
    cases hlives with
    | settled _ hfits | waiting _ hfits => exact ⟨hfits.accountList, hfits.alerts⟩
    | answered _ _ _ _ _ hone => simp [hone] at hanswered

/-- Whatever users click in any number of windows, and in whatever order their calls are served
    and answered while the books change: in each window at most one call is under way, every
    operation that the server carries out follows a click of its own and a validation that found
    nothing pending, and runs in the context that was looked up for the window, and after a failed
    call nothing more is carried out. -/
theorem operations_follow_clicks {ι : Type} [DecidableEq ι] {P : Platform}
    {localeCompare : String → String → ℤ} {collection : Option (List BookInfo)} {d : Desktop ι}
    {server : Server}
    (hruns : Relation.ReflTransGen (DesktopStep P localeCompare collection)
      { server := server } d) (i : ι) :
    InOrder (d.window i) (d.log i) :=
  (lives_of_steps hruns i).inOrder

namespace Sample

/-- The sample books, opened from the financial book. -/
def server : Server where
  books := { inventoryBook := start.inventoryBook, financialBook := fun _ => start.financialBook }
  getBook := fun _ => some ⟨start.financialBook, []⟩

/-- The steps of two windows on the sample books, when names are compared by their length. -/
abbrev WindowSteps : Desktop Bool → Desktop Bool → Prop :=
  Relation.ReflTransGen
    (DesktopStep exactPlatform (fun x y => (x.length : ℤ) - y.length) collection)

/-- The server serves the first call of the first window. -/
def serveNext (d : Desktop Bool) : Desktop Bool :=
  match (d.window true).sent with
  | [] => d
  | call :: after =>
    let (server, reply) := serve exactPlatform (fun x y => (x.length : ℤ) - y.length) collection
      (fun _ => env 9) d.server call
    { d.act true
        { d.window true with sent := after, answered := (d.window true).answered ++ [⟨call, reply⟩] }
        [.served d.server.backlog ⟨call, reply⟩] with
      server := server }

/-- The first window gets its first answer. -/
def answerNext (d : Desktop Bool) : Desktop Bool :=
  match (d.window true).answered with
  | [] => d
  | answer :: after =>
    d.act true (({ d.window true with answered := after } : Window).receive answer) []

theorem serveNext_steps (d : Desktop Bool) : WindowSteps d (serveNext d) := by
  unfold serveNext
  split
  · exact .refl
  · rename_i call after hsent
    exact .single (.served true (fun _ => env 9) (hsent.trans (List.nil_append _).symm))

theorem answerNext_steps (d : Desktop Bool) : WindowSteps d (answerNext d) := by
  unfold answerNext
  split
  · exact .refl
  · rename_i answer after hanswered
    exact .single (.answered true (hanswered.trans (List.nil_append _).symm))

/-- The second window is clicked before it knows its context; the first one has looked up its own. -/
def contextKnown : Desktop Bool :=
  let d : Desktop Bool := { server := server }
  let d := d.act false ((d.window false).start .reset) [.clicked .reset]
  let d := d.act true ((d.window true).loadTemplate ⟨"F", none, none⟩) []
  answerNext (serveNext (answerNext (serveNext d)))

/-- The first window is clicked, and its calculation is validated and carried out. -/
def calculated : Desktop Bool :=
  let d := contextKnown.act true ((contextKnown.window true).start .calculate) [.clicked .calculate]
  answerNext (serveNext (answerNext (serveNext d)))

theorem calculated_steps : WindowSteps { server := server } calculated := by
  have hearly : WindowSteps { server := server } _ := .single (.clicked false .reset rfl)
  have hlocated : WindowSteps { server := server } _ :=
    hearly.tail (.located true ⟨"F", none, none⟩ rfl)
  have hknown : WindowSteps { server := server } contextKnown :=
    (((hlocated.trans (serveNext_steps _)).trans (answerNext_steps _)).trans
      (serveNext_steps _)).trans (answerNext_steps _)
  have hclicked : WindowSteps { server := server } _ :=
    hknown.tail (.clicked true .calculate (by decide +kernel))
  exact (((hclicked.trans (serveNext_steps _)).trans (answerNext_steps _)).trans
    (serveNext_steps _)).trans (answerNext_steps _)

end Sample

/-- The first window shows the accounts and then the result, the second one nothing. -/
theorem operations_follow_clicks_sample :
    InOrder (Sample.calculated.window true) (Sample.calculated.log true) ∧
      InOrder (Sample.calculated.window false) (Sample.calculated.log false) ∧
      (Sample.calculated.log true).filterMap Entry.list =
        [["<p>Widgets</p>"], ["<p>Widgets: &nbsp;Calculated</p>"]] ∧
      (Sample.calculated.window false).sent.length = 0 := by
  have hinorder := operations_follow_clicks Sample.calculated_steps
  exact ⟨hinorder true, hinorder false, by decide +kernel, by decide +kernel⟩

end InventoryBot.Menu
