/-
# Ocpp.SendPipeline -- the way of a frame from a sender to the socket

Every connector has its two queues and its `sendThread`; all of them call `m_ws.send` of one
client, whose service thread writes.  A step of the pipeline is a step of one connector or of
the client, but for `doSend`, in which both take part.

* `Passed` is the invariant of the history: that of every connector, that of the client, and
  what a connector has handed over is what was given to the client and then what it is about to
  give;
* `frames_in_order`: in every run the frames of one connector and class reach the socket in the
  order in which they were pushed, each at most once; and as long as no connection is lost and
  `send` refuses nothing, each of them was written or is at a known place on its way.
-/
import ChargerStack.Ocpp.SendThread
import ChargerStack.Ocpp.WebSocketSend

namespace ChargerStack.Ocpp.SendPipeline

open Lib

set_option autoImplicit false

/-- A frame, with where it comes from. -/
structure Frame (n : Nat) where
  connId : Fin n
  isTx : Bool
  text : String
  deriving DecidableEq, Repr

variable {n : Nat}

/-- `msg.size()`. -/
def Frame.size (frame : Frame n) : Nat := frame.text.utf8ByteSize

/-- `m_connectors` and `m_ws`. -/
structure State (n : Nat) where
  connectors : Fin n → SendThread.State := fun _ => {}
  ws : WebSocketSend.State (Frame n) := {}

inductive Label (n : Nat) where
  /-- A step of a connector. -/
  | connector (k : Fin n) (l : SendThread.Label)
  /-- A step of the client that is not a call of `send`. -/
  | client (l : WebSocketSend.Label (Frame n))
  deriving DecidableEq, Repr

namespace State

def setConnector (s : State n) (k : Fin n) (c : SendThread.State) : State n :=
  { s with connectors := Function.update s.connectors k c }

end State

/-- What the thread of a connector gives to `doSend` in its next step. -/
def sending (pc : SendThread.Pc) : Option (Bool × String) :=
  match pc with
  | .sending isTx text => some (isTx, text)
  | _ => none

def step (s : State n) : Label n → Option (State n)
  | .connector k l =>
      match SendThread.step (s.connectors k) l with
      | none => none
      | some c =>
          match l, sending (s.connectors k).pc with
          | .thread, some (isTx, text) =>
              (WebSocketSend.step Frame.size s.ws (.send ⟨k, isTx, text⟩)).map fun ws =>
                { s.setConnector k c with ws := ws }
          | _, _ => some (s.setConnector k c)
  | .client (.send _) => none
  | .client l => (WebSocketSend.step Frame.size s.ws l).map fun ws => { s with ws := ws }

/-! ## What a run shows -/

inductive Event (n : Nat) where
  | connector (k : Fin n) (e : SendThread.Event)
  /-- `doSend`, and what it returns. -/
  | doSend (frame : Frame n) (ok : Bool)
  | client (e : WebSocketSend.Event (Frame n))
  deriving DecidableEq, Repr

def shows (s : State n) : Label n → Option (Event n)
  | .connector k l =>
      match l, sending (s.connectors k).pc with
      | .thread, some (isTx, text) =>
          some (.doSend ⟨k, isTx, text⟩
            (WebSocketSend.shows Frame.size s.ws (.send ⟨k, isTx, text⟩)).isSome)
      | _, _ => (SendThread.shows (s.connectors k) l).map (.connector k)
  | .client l => (WebSocketSend.shows Frame.size s.ws l).map .client

/-- What one connector shows. -/
def ofConnector (k : Fin n) (es : List (Event n)) : List SendThread.Event :=
  es.filterMap fun
    | .connector i e => if i = k then some e else none
    | _ => none

/-- What the client shows. -/
def ofClient (es : List (Event n)) : List (WebSocketSend.Event (Frame n)) :=
  es.filterMap fun
    | .doSend frame true => some (.accepted frame)
    | .client e => some e
    | _ => none

/-- What `doSend` was called with. -/
def attempted (es : List (Event n)) : List (Frame n) :=
  es.filterMap fun | .doSend frame _ => some frame | _ => none

/-- What `send` has not accepted. -/
def refused (es : List (Event n)) : List (Frame n) :=
  es.filterMap fun | .doSend frame false => some frame | _ => none

/-- The frames of one connector and class. -/
def texts (k : Fin n) (isTx : Bool) (fs : List (Frame n)) : List String :=
  fs.filterMap fun frame => if frame.connId = k ∧ frame.isTx = isTx then some frame.text else none

/-! ## What a step can do -/

variable {s t : State n} {l : Label n} {es fs : List (Event n)} {k i : Fin n} {isTx : Bool}

/-- The steps of the pipeline, with what each of them shows. -/
inductive Move (s : State n) : Label n → State n → Option (Event n) → Prop where
  | connector (k : Fin n) (l : SendThread.Label) (c : SendThread.State)
      (moved : SendThread.step (s.connectors k) l = some c)
      (keeps : l = .thread → ∀ isTx text, (s.connectors k).pc ≠ .sending isTx text) :
      Move s (.connector k l) (s.setConnector k c)
        ((SendThread.shows (s.connectors k) l).map (.connector k))
  | doSend (k : Fin n) (isTx : Bool) (text : String)
      (at_ : (s.connectors k).pc = .sending isTx text) (ws : WebSocketSend.State (Frame n))
      (moved : WebSocketSend.step Frame.size s.ws (.send ⟨k, isTx, text⟩) = some ws) :
      Move s (.connector k .thread)
        { s.setConnector k { s.connectors k with pc := .head } with ws := ws }
        (some (.doSend ⟨k, isTx, text⟩
          (WebSocketSend.shows Frame.size s.ws (.send ⟨k, isTx, text⟩)).isSome))
  | client (l : WebSocketSend.Label (Frame n)) (ws : WebSocketSend.State (Frame n))
      (moved : WebSocketSend.step Frame.size s.ws l = some ws) (other : ∀ msg, l ≠ .send msg) :
      Move s (.client l) { s with ws := ws }
        ((WebSocketSend.shows Frame.size s.ws l).map .client)

theorem sending_eq_some {pc : SendThread.Pc} {isTx : Bool} {text : String} :
    sending pc = some (isTx, text) ↔ pc = .sending isTx text := by
  cases pc <;> simp [sending]

theorem move_of_step (moved : step s l = some t) : Move s l t (shows s l) := by
  cases l with
  | connector k l =>
      simp only [step] at moved
      cases stepped : SendThread.step (s.connectors k) l with
      | none => simp [stepped] at moved
      | some c =>
          simp only [stepped] at moved
          by_cases gives : l = .thread ∧ (sending (s.connectors k).pc).isSome
          · obtain ⟨rfl, gives⟩ := gives
            obtain ⟨⟨isTx, text⟩, at_⟩ := Option.isSome_iff_exists.1 gives
            have pc := sending_eq_some.1 at_
            simp only [at_, Option.map_eq_some_iff] at moved
            obtain ⟨ws, sent, rfl⟩ := moved
            simp only [SendThread.step, pc, Option.some.injEq] at stepped
            subst stepped
            simpa [shows, at_] using Move.doSend k isTx text pc ws sent
          · have keeps : l = .thread → ∀ isTx text, (s.connectors k).pc ≠ .sending isTx text := by
              intro thread isTx text at_
              exact gives ⟨thread, by simp [sending_eq_some.2 at_]⟩
            have next := Move.connector k l c stepped keeps
            have shown : shows s (.connector k l) =
                (SendThread.shows (s.connectors k) l).map (.connector k) := by
              simp only [shows]
              split
              · exact absurd ⟨rfl, by simp [*]⟩ gives
              · rfl
            rw [shown]
            split at moved
            · exact absurd ⟨rfl, by simp [*]⟩ gives
            · exact Option.some.inj moved ▸ next
  | client l =>
      cases l with
      | send msg => cases moved
      | _ =>
          simp only [step, Option.map_eq_some_iff] at moved
          obtain ⟨ws, sent, rfl⟩ := moved
          exact .client _ ws sent (by simp)

/-! ## In order -/

/-- What a connector is giving to `doSend`, by class. -/
def sendingTexts (pc : SendThread.Pc) (isTx : Bool) : List String :=
  match pc with
  | .sending branch text => if branch = isTx then [text] else []
  | _ => []

/-- Outside of `doSend`, a connector gives what it shows as handed over. -/
theorem sendingTexts_step {c d : SendThread.State} {l : SendThread.Label} (isTx : Bool)
    (keeps : l = .thread → ∀ isTx text, c.pc ≠ .sending isTx text)
    (moved : SendThread.step c l = some d) : sendingTexts d.pc isTx =
      sendingTexts c.pc isTx ++ SendThread.handed isTx (SendThread.shows c l).toList := by
  cases l with
  | push branch frame =>
      obtain rfl := Option.some.inj moved
      simp only [SendThread.setQueue_pc, SendThread.shows]
      split <;> simp [SendThread.handed]
  | stop =>
      obtain rfl := Option.some.inj moved
      simp [SendThread.shows, SendThread.handed]
  | timeout =>
      simp only [SendThread.step] at moved
      split at moved
      · split at moved
        · cases moved
        · obtain rfl := Option.some.inj moved
          simp [SendThread.shows, SendThread.handed, sendingTexts, *]
      · cases moved
  | thread =>
      have waits := keeps rfl
      cases pc : c.pc with
      | sending branch text => exact absurd pc (waits branch text)
      | ended => simp [SendThread.step, pc] at moved
      | idle =>
          simp only [SendThread.step, pc, Option.some.injEq] at moved
          subst moved
          simp [SendThread.shows, pc, SendThread.handed, sendingTexts]
      | head | testTx | testNonTx =>
          simp only [SendThread.step, pc, Option.some.injEq] at moved
          subst moved
          simp only [SendThread.shows, pc]
          split <;> simp [SendThread.handed, sendingTexts]
      | pop branch =>
          simp only [SendThread.step, pc] at moved
          split at moved
          · obtain rfl := Option.some.inj moved
            simp only [SendThread.shows, pc]
            cases (c.queue branch).take.1 <;> simp [SendThread.handed, sendingTexts]
          · cases moved
      | took branch msg =>
          simp only [SendThread.step, pc, Option.some.injEq] at moved
          subst moved
          simp only [SendThread.shows, pc]
          split
          · simp [SendThread.handed, sendingTexts]
          · simp [sendingTexts]

@[simp] theorem ofConnector_append : ofConnector k (es ++ fs) = ofConnector k es ++ ofConnector k fs :=
  List.filterMap_append ..

@[simp] theorem ofClient_append : ofClient (es ++ fs) = ofClient es ++ ofClient fs :=
  List.filterMap_append ..

@[simp] theorem attempted_append : attempted (es ++ fs) = attempted es ++ attempted fs :=
  List.filterMap_append ..

@[simp] theorem texts_append {as bs : List (Frame n)} :
    texts k isTx (as ++ bs) = texts k isTx as ++ texts k isTx bs :=
  List.filterMap_append ..

/-- The connectors, the client, and what is between them. -/
structure Passed (es : List (Event n)) (s : State n) : Prop where
  served : ∀ k, SendThread.Served (ofConnector k es) (s.connectors k)
  accounted : WebSocketSend.Accounted (ofClient es) s.ws
  given : ∀ k isTx, SendThread.handed isTx (ofConnector k es) =
    texts k isTx (attempted es) ++ sendingTexts (s.connectors k).pc isTx
  accepted : (WebSocketSend.accepted (ofClient es)).Sublist (attempted es)
  taken : refused es = [] → WebSocketSend.accepted (ofClient es) = attempted es

/-- No frame pushed is empty. -/
def Filled : Label n → Prop
  | .connector _ (.push _ frame) => frame ≠ ""
  | _ => True

theorem ofConnector_own {v : Option SendThread.Event} :
    ofConnector i (v.map (.connector k)).toList = if k = i then v.toList else [] := by
  cases v <;> by_cases same : k = i <;> simp [ofConnector, same]

theorem ofConnector_client {v : Option (WebSocketSend.Event (Frame n))} :
    ofConnector i (v.map .client).toList = [] := by
  cases v <;> rfl

theorem ofClient_own {v : Option (WebSocketSend.Event (Frame n))} :
    ofClient (v.map .client).toList = v.toList := by
  cases v <;> rfl

@[simp] theorem setConnector_ws {c : SendThread.State} : (s.setConnector k c).ws = s.ws := rfl

theorem passed_connector {l : SendThread.Label} {c : SendThread.State} (passed : Passed es s)
    (filled : ∀ isTx frame, l = .push isTx frame → frame ≠ "")
    (moved : SendThread.step (s.connectors k) l = some c)
    (keeps : l = .thread → ∀ isTx text, (s.connectors k).pc ≠ .sending isTx text) :
    Passed (es ++ ((SendThread.shows (s.connectors k) l).map (.connector k)).toList)
      (s.setConnector k c) := by
  obtain ⟨served, accounted, given, accepted, taken⟩ := passed
  have silent : ∀ v : Option SendThread.Event,
      ofClient (v.map (Event.connector k)).toList = [] ∧
        attempted (v.map (Event.connector k)).toList = [] ∧
        refused (v.map (Event.connector k)).toList = [] := by
    rintro (_ | _) <;> exact ⟨rfl, rfl, rfl⟩
  obtain ⟨client, attempt, refusal⟩ := silent (SendThread.shows (s.connectors k) l)
  refine ⟨fun i => ?_, by simpa [client] using accounted, fun i isTx => ?_,
    by simpa [client, attempt] using accepted, fun none => ?_⟩
  · rw [ofConnector_append, ofConnector_own]
    by_cases same : k = i
    · subst same
      simpa [State.setConnector] using SendThread.served_step (served k) filled moved
    · simpa [State.setConnector, same, Ne.symm same] using served i
  · rw [ofConnector_append, ofConnector_own, attempted_append, attempt, List.append_nil]
    by_cases same : k = i
    · subst same
      have step := sendingTexts_step isTx keeps moved
      simp only [if_true, State.setConnector, Function.update_self, step,
        SendThread.handed_append, given k isTx, List.append_assoc]
    · simpa [State.setConnector, same, Ne.symm same] using given i isTx
  · rw [ofClient_append, attempted_append, client, attempt, List.append_nil, List.append_nil]
    refine taken ?_
    have all : refused es ++ _ = [] := (List.filterMap_append ..).symm.trans none
    exact (List.append_eq_nil_iff.1 all).1

/-- The client shows what `doSend` returns. -/
theorem ofClient_doSend {frame : Frame n} :
    ofClient [.doSend frame (WebSocketSend.shows Frame.size s.ws (.send frame)).isSome] =
      (WebSocketSend.shows Frame.size s.ws (.send frame)).toList := by
  simp only [WebSocketSend.shows]
  split <;> rfl

theorem passed_doSend {text : String} {ws : WebSocketSend.State (Frame n)} (passed : Passed es s)
    (at_ : (s.connectors k).pc = .sending isTx text)
    (moved : WebSocketSend.step Frame.size s.ws (.send ⟨k, isTx, text⟩) = some ws) :
    Passed (es ++ [.doSend ⟨k, isTx, text⟩
        (WebSocketSend.shows Frame.size s.ws (.send ⟨k, isTx, text⟩)).isSome])
      { s.setConnector k { s.connectors k with pc := .head } with ws := ws } := by
  obtain ⟨served, accounted, given, accepted, taken⟩ := passed
  have next := WebSocketSend.accounted_step _ _ _ _ accounted moved
  have own : ∀ i, ofConnector i ([.doSend ⟨k, isTx, text⟩ (WebSocketSend.shows Frame.size s.ws
      (.send ⟨k, isTx, text⟩)).isSome] : List (Event n)) = [] := fun i => rfl
  refine ⟨fun i => ?_, ?_, fun i branch => ?_, ?_, fun none => ?_⟩
  · rw [ofConnector_append, own, List.append_nil]
    by_cases same : k = i
    · subst same
      have returns : SendThread.step (s.connectors k) .thread =
          some { s.connectors k with pc := .head } := by
        simp [SendThread.step, at_]
      simpa [State.setConnector, SendThread.shows, at_] using
        SendThread.served_step (served k) (by simp) returns
    · simpa [State.setConnector, Ne.symm same] using served i
  · rw [ofClient_append, ofClient_doSend]
    exact next
  · rw [ofConnector_append, own, List.append_nil, attempted_append, texts_append, given i branch,
      List.append_assoc]
    by_cases same : k = i
    · subst same
      by_cases match_ : isTx = branch <;>
        simp [State.setConnector, texts, attempted, sendingTexts, at_, match_]
    · simp [State.setConnector, texts, attempted, same, Ne.symm same]
  · rw [ofClient_append, ofClient_doSend, WebSocketSend.accepted_append, attempted_append]
    refine accepted.append ?_
    simp only [WebSocketSend.shows]
    split
    · exact .refl _
    · exact List.nil_sublist _
  · have all : refused es ++ refused [.doSend ⟨k, isTx, text⟩ (WebSocketSend.shows Frame.size s.ws
        (.send ⟨k, isTx, text⟩)).isSome] = [] := (List.filterMap_append ..).symm.trans none
    obtain ⟨before, now⟩ := List.append_eq_nil_iff.1 all
    rw [ofClient_append, ofClient_doSend, WebSocketSend.accepted_append, attempted_append, taken before]
    simp only [WebSocketSend.shows] at now ⊢
    split at now
    · rw [if_pos ‹_›]
      rfl
    · cases now

theorem passed_step (es : List (Event n)) (s : State n) (l : Label n) (t : State n)
    (filled : Filled l) (passed : Passed es s) (moved : step s l = some t) :
    Passed (es ++ (shows s l).toList) t := by
  have move := move_of_step moved
  generalize shows s l = shown at move ⊢
  cases move with
  | connector k l c stepped keeps =>
      refine passed_connector passed (fun isTx frame same => ?_) stepped keeps
      subst same
      exact filled
  | doSend k isTx text at_ ws sent => exact passed_doSend passed at_ sent
  | client l ws stepped other =>
      obtain ⟨served, accounted, given, accepted, taken⟩ := passed
      have next := WebSocketSend.accounted_step _ _ _ _ accounted stepped
      have silent : ∀ v : Option (WebSocketSend.Event (Frame n)),
          attempted (v.map Event.client).toList = [] ∧ refused (v.map Event.client).toList = [] := by
        rintro (_ | _) <;> exact ⟨rfl, rfl⟩
      obtain ⟨attempt, refusal⟩ := silent (WebSocketSend.shows Frame.size s.ws l)
      have none := WebSocketSend.accepted_shows Frame.size s.ws other
      refine ⟨fun i => ?_, ?_, fun i branch => ?_, ?_, fun un => ?_⟩
      · simpa [ofConnector_client] using served i
      · simpa [ofClient_own] using next
      · simpa [ofConnector_client, attempt] using given i branch
      · simpa [ofClient_own, attempt, none] using accepted
      · have all : refused es ++ _ = [] := (List.filterMap_append ..).symm.trans un
        simpa [ofClient_own, attempt, none] using taken (List.append_eq_nil_iff.1 all).1

theorem passed_start : Passed [] ({} : State n) where
  served _ := SendThread.served_start
  accounted := ⟨rfl, rfl, .slnil, .refl _⟩
  given _ _ := rfl
  accepted := .slnil
  taken _ := rfl

/-- No step loses a message of the client. -/
def Calm : Label n → Prop
  | .client l => l.Calm
  | _ => True

/-- While nothing is lost, the client has written what it has accepted, up to what it keeps. -/
structure Lossless (es : List (Event n)) (s : State n) : Prop where
  calm : WebSocketSend.Calm s.ws
  kept : WebSocketSend.Kept (ofClient es) [] s.ws

theorem lossless_step (es : List (Event n)) (s : State n) (l : Label n) (t : State n)
    (calm : Calm l) (lossless : Lossless es s) (moved : step s l = some t) :
    Lossless (es ++ (shows s l).toList) t := by
  obtain ⟨still, kept⟩ := lossless
  have move := move_of_step moved
  generalize shows s l = shown at move ⊢
  cases move with
  | connector k l c stepped keeps =>
      have client : ofClient ((SendThread.shows (s.connectors k) l).map
          (Event.connector k)).toList = [] := by
        cases SendThread.shows (s.connectors k) l <;> rfl
      exact ⟨still, by simpa [client] using kept⟩
  | doSend k isTx text at_ ws sent =>
      have gives : (WebSocketSend.Label.send ⟨k, isTx, text⟩ : WebSocketSend.Label (Frame n)).Calm :=
        trivial
      have next := WebSocketSend.kept_step _ _ _ _ (WebSocketSend.calm_keeps still gives sent)
        kept sent
      refine ⟨WebSocketSend.calm_step _ _ _ gives still sent, ?_⟩
      rw [Option.toList_some, ofClient_append, ofClient_doSend]
      exact next
  | client l ws stepped other =>
      have next := WebSocketSend.kept_step _ _ _ _ (WebSocketSend.calm_keeps still calm stepped)
        kept stepped
      exact ⟨WebSocketSend.calm_step _ _ _ calm still stepped, by simpa [ofClient_own] using next⟩

theorem texts_sublist {as bs : List (Frame n)} (sub : as.Sublist bs) :
    (texts k isTx as).Sublist (texts k isTx bs) :=
  sub.filterMap _

theorem passed_run {ls : List (Label n)} (filled : ∀ l ∈ ls, Filled l)
    (ran : exec step {} ls = some s) : Passed (observe step shows {} ls) s := by
  have passed := exec_history (h := []) passed_step
    (along_of_labels (fun l inside _ => filled l inside) _) passed_start ran
  rwa [List.nil_append] at passed

/-- What is written of a connector and class is a part of what was pushed, in its order. -/
theorem written_sublist {ls : List (Label n)} (filled : ∀ l ∈ ls, Filled l)
    (ran : exec step {} ls = some s) (k : Fin n) (isTx : Bool) :
    (texts k isTx (WebSocketSend.written (ofClient (observe step shows {} ls)))).Sublist
      (SendThread.pushed isTx (ofConnector k (observe step shows {} ls))) := by
  obtain ⟨served, accounted, given, accepted, -⟩ := passed_run filled ran
  have pushed := (served k).account isTx
  calc (texts k isTx (WebSocketSend.written (ofClient (observe step shows {} ls)))).Sublist
        (texts k isTx (WebSocketSend.out (ofClient (observe step shows {} ls)))) :=
        texts_sublist ((List.sublist_append_left ..).trans accounted.order)
    List.Sublist _ (texts k isTx (WebSocketSend.accepted (ofClient (observe step shows {} ls)))) :=
        texts_sublist (accounted.queued ▸ List.sublist_append_left ..)
    List.Sublist _ (texts k isTx (attempted (observe step shows {} ls))) := texts_sublist accepted
    List.Sublist _ (SendThread.handed isTx (ofConnector k (observe step shows {} ls))) :=
        given k isTx ▸ List.sublist_append_left ..
    List.Sublist _ _ := by
        rw [pushed, List.append_assoc]
        exact List.sublist_append_left ..

theorem push_of_shows {c : SendThread.State} {l : SendThread.Label} {text : String}
    (seen : SendThread.shows c l = some (.pushed isTx text)) : l = .push isTx text := by
  cases l with
  | push tx frame =>
      simp only [SendThread.shows] at seen
      split at seen
      · cases seen
        rfl
      · cases seen
  | thread =>
      simp only [SendThread.shows] at seen
      repeat' split at seen
      all_goals simp at seen
  | _ => cases seen

/-- A text that was pushed was pushed by a label. -/
theorem mem_pushed {ls : List (Label n)} {text : String}
    (there : text ∈ SendThread.pushed isTx (ofConnector k (observe step shows s ls))) :
    .connector k (.push isTx text) ∈ ls := by
  simp only [SendThread.pushed, ofConnector, List.mem_filterMap] at there
  obtain ⟨e, ⟨whole, shown, mine⟩, same⟩ := there
  obtain ⟨l, inside, t, seen⟩ := mem_observe shown
  split at mine
  · split at mine <;> cases mine
    subst_vars
    split at same
    · split at same <;> cases same
      subst_vars
      cases l with
      | client l => cases h : WebSocketSend.shows Frame.size t.ws l <;> simp [shows, h] at seen
      | connector i l =>
          simp only [shows] at seen
          split at seen
          · cases seen
          · obtain ⟨e, seen, same⟩ := Option.map_eq_some_iff.1 seen
            cases same
            rw [push_of_shows seen] at inside
            exact inside
    · cases same
  · cases mine

/-- **In order, end to end.**  In every run in which no empty frame is pushed, however the
threads of the connectors, the senders and the service thread come in between each other, the
frames of one connector and class are written in the order in which they were pushed, each at
most once.  As long as no connection is closed, no write fails and nobody disconnects, and `send`
refuses nothing, what was pushed is what was written, then what the client has, then what the
connector has, each in that order. -/
theorem frames_in_order {ls : List (Label n)} (filled : ∀ l ∈ ls, Filled l)
    (ran : exec step {} ls = some s) (k : Fin n) (isTx : Bool) :
    let es := observe step shows {} ls
    (texts k isTx (WebSocketSend.written (ofClient es))).Sublist
        (SendThread.pushed isTx (ofConnector k es)) ∧
      ((∀ l ∈ ls, Calm l) → refused es = [] → SendThread.pushed isTx (ofConnector k es) =
        texts k isTx (WebSocketSend.written (ofClient es) ++ s.ws.hand ++ s.ws.queue.items) ++
          sendingTexts (s.connectors k).pc isTx ++ (s.connectors k).inHand isTx ++
          ((s.connectors k).queue isTx).items) := by
  obtain ⟨served, -, given, -, taken⟩ := passed_run filled ran
  refine ⟨written_sublist filled ran k isTx, fun calm none => ?_⟩
  have lossless := exec_history (h := []) lossless_step
    (along_of_labels (fun l inside _ => calm l inside) _)
    ⟨⟨rfl, rfl, rfl, by simp⟩, ⟨rfl, rfl⟩⟩ ran
  have flow := lossless.kept.flow
  simp only [List.nil_append] at flow
  rw [(served k).account isTx, given k isTx, ← taken none, flow]

/-- Two connectors push, the frames meet in the client, and the first of them is written. -/
def meeting : List (Label 2) :=
  [.connector 0 (.push false "a"), .connector 1 (.push true "b"), .connector 1 .thread,
    .connector 1 .thread, .connector 1 .thread, .connector 1 .thread, .connector 0 .thread,
    .connector 0 .thread, .connector 0 .thread, .connector 0 .thread, .connector 0 .thread,
    .connector 0 .thread, .connector 1 .thread, .client .connect, .client .established,
    .client (.service true), .client (.service true), .client .writeable, .client (.service true),
    .client (.service true)]

theorem meeting_in_order :
    let es := observe step shows {} meeting
    ∃ s, exec step {} meeting = some s ∧ texts 1 true (WebSocketSend.written (ofClient es)) = [] ∧
      texts 0 false (WebSocketSend.written (ofClient es)) = ["a"] ∧
      (texts 0 false (WebSocketSend.written (ofClient es))).Sublist
        (SendThread.pushed false (ofConnector 0 es)) := by
  have filled : ∀ l ∈ meeting, Filled l := by simp [meeting, Filled]
  have runs : (exec step {} meeting).isSome = true := by decide
  obtain ⟨s, ran⟩ := Option.isSome_iff_exists.1 runs
  exact ⟨s, ran, by decide, by decide, (frames_in_order filled ran 0 false).1⟩

end ChargerStack.Ocpp.SendPipeline
