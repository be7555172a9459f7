/-
# Notifications of blocked connections: `service/src/notification`

`notify_blocked_connection` puts a notification into the queue of the GUI unless
`NotificationDeduplicator` has seen its key in the last 60 seconds.  The key is meant for a process
and a remote end, and is a text: the process id, the address, the port and the name of the process,
with colons between them, and the clock hour.

For what has one key the deduplicator is a cooldown (`Lib.Cooldown`).  Two things come between that
and a cooldown for the process and the remote end: when the hour turns, the same connection has
another key (`CrossesHour`), and two connections may have one text (`Collides`).
`rateLimited_iff` says that nothing else does.
-/

import Ceasefire.Base.NetDisplay
import Ceasefire.Lib.Cooldown
import Ceasefire.Lib.Window
import Ceasefire.Service.Columns
import Ceasefire.Service.DriverEvents
import Ceasefire.Service.Rfc3339

namespace Ceasefire
namespace Service

open Lib (padded padded_inj length_padded Along TimeOrdered)
open Lib.Cooldown (ask Remembers remembers_nil fst_ask_eq_false_iff)
open Lib.Calendar (Date)

/-! ## The clock hour -/

namespace DateTime

/-- `format("%Y%m%d%H")` -/
def hourText (t : DateTime) : String :=
  String.ofList (yearText t.date.year ++ (padded 2 t.date.month ++ (padded 2 t.date.day ++
    padded 2 (t.inHours % 24))))

theorem yearText_inj {y y' : ℕ} : yearText y = yearText y' ↔ y = y' := by
  have hsign : ∀ {n l}, padded 4 n ≠ '+' :: l := fun {n l} h => by
    have hdigit : ∀ d : Fin 10, Nat.digitChar d.val ≠ '+' := by decide
    exact hdigit ⟨_, Nat.mod_lt _ (by decide)⟩ (List.cons.inj h).1
  refine ⟨fun h => ?_, fun h => h ▸ rfl⟩
  unfold yearText at h
  split_ifs at h with hy hy' hy'
  · exact (padded_inj (by omega) (by omega)).1 h
  · exact absurd h hsign
  · exact absurd h.symm hsign
  · have hdigits := congrArg (Net.digitsValue 10 0) (List.cons.inj h).2
    rwa [Net.digitsValue_toDigits (by decide) (by decide),
      Net.digitsValue_toDigits (by decide) (by decide)] at hdigits

/-- **The text tells the hour.** -/
theorem hourText_inj {t t' : DateTime} : t.hourText = t'.hourText ↔ t.inHours = t'.inHours := by
  constructor
  · intro h
    obtain ⟨hyear, h⟩ := List.append_inj' (String.ofList_injective h) (by simp)
    obtain ⟨hmonth, h⟩ := List.append_inj h (by simp)
    obtain ⟨hday, hhour⟩ := List.append_inj h (by simp)
    rw [yearText_inj] at hyear
    rw [padded_inj t.month_lt t'.month_lt] at hmonth
    rw [padded_inj t.day_lt t'.day_lt] at hday
    rw [padded_inj (mod_lt_hundred (by decide) (by decide) _)
      (mod_lt_hundred (by decide) (by decide) _)] at hhour
    have hdate : t.date.toDay = t'.date.toDay := by rw [Date.toDay, Date.toDay, hyear, hmonth, hday]
    rw [date, date, Date.toDay_ofDay, Date.toDay_ofDay] at hdate
    rw [← Nat.div_add_mod t.inHours 24, ← Nat.div_add_mod t'.inHours 24, hhour]
    exact congrArg (24 * · + _) hdate
  · intro h
    have hdays : t.inDays = t'.inDays := congrArg (· / 24) h
    rw [hourText, hourText, date, date, hdays, h]

end DateTime

/-! ## The notifier -/

/-- `NetworkEvent`, with its `process_name`. -/
structure BlockedEvent extends NetworkEvent where
  processName : Option String

/-- `NotificationKind` -/
inductive NotificationKind
  | blocked
  | ask
  deriving DecidableEq, Repr

/-- `NotificationItem` -/
structure NotificationItem where
  id : U64
  kind : NotificationKind
  timestamp : String
  processPath : Option String
  processName : Option String
  remoteAddr : String
  remotePort : U16
  protocol : String
  direction : String
  ruleId : Option U32
  deriving DecidableEq, Repr

/-- `NotificationDeduplicator` -/
structure NotificationDeduplicator where
  lastNotifications : List (String × DateTime)
  cooldown : ℕ
  deriving DecidableEq, Repr

/-- `NotificationDeduplicator::new` -/
def NotificationDeduplicator.new : NotificationDeduplicator := ⟨[], Duration.seconds 60⟩

/-- `should_notify`, with `cleanup_expired`. -/
def NotificationDeduplicator.shouldNotify (key : String) (cooldownSeconds : ℕ) (now : DateTime)
    (d : NotificationDeduplicator) : Bool × NotificationDeduplicator :=
  let r := ask (Duration.seconds cooldownSeconds) d.cooldown key now d.lastNotifications
  (r.1, { d with lastNotifications := r.2 })

def QUEUE_CAP : ℕ := 500

/-- `Notifier` -/
structure Notifier where
  deduplicator : NotificationDeduplicator
  enabled : Bool
  askMode : Bool
  queue : List NotificationItem
  nextId : U64
  deriving DecidableEq, Repr

/-- A call: the event, and what the clocks show. -/
structure Blocked where
  event : BlockedEvent
  time : DateTime

namespace Notifier

/-- `Notifier::new` -/
def new : Notifier := ⟨.new, true, false, [], 1⟩

/-- `enqueue` -/
def enqueue (item : NotificationItem) (n : Notifier) : Notifier :=
  { n with queue := (if n.queue.length ≥ QUEUE_CAP then n.queue.tail else n.queue) ++ [item] }

/-- `drain` -/
def drain (max : ℕ) (n : Notifier) : List NotificationItem × Notifier :=
  let count := min max n.queue.length
  (n.queue.take count, { n with queue := n.queue.drop count })

/-- `make_item`, and the next number. -/
def makeItem (drives : Drives) (kind : NotificationKind) (call : Blocked) (n : Notifier) :
    NotificationItem × Notifier :=
  ({ id := n.nextId
     kind
     timestamp := call.time.toRfc3339
     processPath := call.event.processPath.bind fun p =>
       (convertNtPathToDos drives p.toList).map String.ofList
     processName := call.event.processName
     remoteAddr := call.event.remoteAddr
     remotePort := call.event.remotePort
     protocol := display call.event.protocol
     direction := display call.event.direction
     ruleId := call.event.ruleId },
    { n with nextId := n.nextId + 1 })

end Notifier

/-- The key of a call, up to the hour. -/
def Blocked.connectionText (call : Blocked) : String :=
  let processId := (call.event.processId.getD 0).toNat
  let remoteAddr := call.event.remoteAddr
  let remotePort := call.event.remotePort.toNat
  let processName := call.event.processName.getD ""
  s!"{processId}:{remoteAddr}:{remotePort}:{processName}:"

/-- The key of a call. -/
def Blocked.key (call : Blocked) : String := call.connectionText ++ call.time.hourText

/-- `notify_blocked_connection`: the notification that is put into the queue, if any. -/
def Notifier.notifyBlockedConnection (drives : Drives) (call : Blocked) (n : Notifier) :
    Option NotificationItem × Notifier :=
  if !n.enabled then (none, n)
  else
    let (granted, deduplicator) := n.deduplicator.shouldNotify call.key 60 call.time
    let n := { n with deduplicator }
    if granted then
      let kind := if n.askMode && call.event.ruleId.isNone then .ask else .blocked
      let (item, n) := n.makeItem drives kind call
      (some item, n.enqueue item)
    else (none, n)

/-! ## Runs -/

/-- What the service asks of the notifier. -/
inductive NotifierRequest
  | blocked (call : Blocked)
  | drain (max : ℕ)
  | setAskMode (enabled : Bool)

/-- The time that a request shows, if it looks at the clocks. -/
def NotifierRequest.time : NotifierRequest → Option DateTime
  | .blocked call => some call.time
  | _ => none

/-- The notifier, and the calls for which it has put a notification into the queue. -/
structure NotifierRun where
  notifier : Notifier
  sent : List Blocked

variable (drives : Drives)

/-- One request. -/
def NotifierRun.step (w : NotifierRun) : NotifierRequest → NotifierRun
  | .blocked call =>
      let r := w.notifier.notifyBlockedConnection drives call
      ⟨r.2, if r.1.isSome then w.sent ++ [call] else w.sent⟩
  | .drain max => { w with notifier := (w.notifier.drain max).2 }
  | .setAskMode enabled => { w with notifier := { w.notifier with askMode := enabled } }

/-- What a notification is for. -/
def Blocked.connection (call : Blocked) : Option U32 × String × U16 × Option String :=
  (call.event.processId, call.event.remoteAddr, call.event.remotePort, call.event.processName)

/-- `a` is less than 60 seconds before `call`. -/
def Recent (a call : Blocked) : Prop := call.time - a.time < Duration.seconds 60

instance (a call : Blocked) : Decidable (Recent a call) := inferInstanceAs (Decidable (_ < _))

/-- Of two notifications for one connection the second is 60 seconds behind the first. -/
def Apart (a call : Blocked) : Prop := a.connection = call.connection → ¬ Recent a call

/-- A call gets no notification only if there is a recent one for its connection. -/
def Suppresses (w : NotifierRun) : NotifierRequest → Prop
  | .blocked call => (w.notifier.notifyBlockedConnection drives call).1 = none →
      ∃ a ∈ w.sent, a.connection = call.connection ∧ Recent a call
  | _ => True

/-- The two halves of the rate limit, over a run. -/
structure RateLimited (w : NotifierRun) (requests : List NotifierRequest) : Prop where
  apart : (requests.foldl (NotifierRun.step drives) w).sent.Pairwise Apart
  suppresses : Along (NotifierRun.step drives) (Suppresses drives) w requests

/-- A recent notification for the connection of the call is from another clock hour. -/
def CrossesHour (sent : List Blocked) (call : Blocked) : Prop :=
  ∃ a ∈ sent, Recent a call ∧ a.connection = call.connection ∧ a.time.inHours ≠ call.time.inHours

/-- A recent notification with the key of the call is for another connection. -/
def Collides (sent : List Blocked) (call : Blocked) : Prop :=
  ∃ a ∈ sent, Recent a call ∧ a.key = call.key ∧ a.connection ≠ call.connection

/-- Neither comes between, or both do and the call goes as it should. -/
def Undisturbed (w : NotifierRun) : NotifierRequest → Prop
  | .blocked call => CrossesHour w.sent call ↔ Collides w.sent call
  | _ => True

/-! ## One request -/

theorem connectionText_congr {a call : Blocked} (h : a.connection = call.connection) :
    a.connectionText = call.connectionText := by
  simp only [Blocked.connection, Prod.mk.injEq] at h
  obtain ⟨hid, haddr, hport, hname⟩ := h
  simp only [Blocked.connectionText, hid, haddr, hport, hname]

/-- **For one connection the key tells the hour.** -/
theorem key_eq_iff {a call : Blocked} (h : a.connection = call.connection) :
    a.key = call.key ↔ a.time.inHours = call.time.inHours := by
  rw [Blocked.key, Blocked.key, connectionText_congr h, String.append_right_inj,
    DateTime.hourText_inj]

variable {drives} {w : NotifierRun} {now : DateTime} {call : Blocked}

/-- The notifier is on, and its deduplicator knows the notifications that were sent. -/
structure Tracks (w : NotifierRun) (now : DateTime) : Prop where
  enabled : w.notifier.enabled = true
  cooldown : w.notifier.deduplicator.cooldown = Duration.seconds 60
  remembers : Remembers (Duration.seconds 60) (w.sent.map fun a => (a.key, a.time)) now
    w.notifier.deduplicator.lastNotifications

/-- The notifier sends what the deduplicator grants. -/
theorem notify_isSome (h : Tracks w now) (call : Blocked) :
    (w.notifier.notifyBlockedConnection drives call).1.isSome =
      (ask (Duration.seconds 60) (Duration.seconds 60) call.key call.time
        w.notifier.deduplicator.lastNotifications).1 := by
  rw [Notifier.notifyBlockedConnection, h.enabled, NotificationDeduplicator.shouldNotify, h.cooldown]
  cases (ask (Duration.seconds 60) (Duration.seconds 60) call.key call.time
    w.notifier.deduplicator.lastNotifications).1 <;> rfl

variable (drives) in
/-- Its other parts are the deduplicator's own. -/
theorem notify_deduplicator (h : Tracks w now) (call : Blocked) :
    (w.notifier.notifyBlockedConnection drives call).2.enabled = true ∧
      (w.notifier.notifyBlockedConnection drives call).2.deduplicator =
        ⟨(ask (Duration.seconds 60) (Duration.seconds 60) call.key call.time
          w.notifier.deduplicator.lastNotifications).2, Duration.seconds 60⟩ := by
  rw [Notifier.notifyBlockedConnection, h.enabled, NotificationDeduplicator.shouldNotify, h.cooldown]
  cases hgranted : (ask (Duration.seconds 60) (Duration.seconds 60) call.key call.time
    w.notifier.deduplicator.lastNotifications).1 <;>
  exact ⟨rfl, rfl⟩

variable (drives) in
/-- **A call is suppressed when a recent one with its key was notified.** -/
theorem notify_isSome_eq_false_iff (h : Tracks w now) (hnow : now ≤ call.time) :
    (w.notifier.notifyBlockedConnection drives call).1.isSome = false ↔
      ∃ a ∈ w.sent, a.key = call.key ∧ Recent a call := by
  rw [notify_isSome h, fst_ask_eq_false_iff _ h.remembers hnow]
  constructor
  · rintro ⟨e, he, hkey, hrecent⟩
    obtain ⟨a, ha, rfl⟩ := List.mem_map.1 he
    exact ⟨a, ha, hkey, hrecent⟩
  · rintro ⟨a, ha, hkey, hrecent⟩
    exact ⟨_, List.mem_map_of_mem ha, hkey, hrecent⟩

theorem Tracks.step {r : NotifierRequest} (h : Tracks w now) (hnow : ∀ t ∈ r.time, now ≤ t) :
    Tracks (w.step drives r) (r.time.getD now) := by
  cases r with
  | drain max => exact ⟨h.enabled, h.cooldown, h.remembers⟩
  | setAskMode enabled => exact ⟨h.enabled, h.cooldown, h.remembers⟩
  | blocked call =>
      obtain ⟨henabled, hdedup⟩ := notify_deduplicator drives h call
      have hask := h.remembers.after_ask (k := call.key) (hnow call.time rfl) (le_refl _)
      refine ⟨henabled, by rw [NotifierRun.step, hdedup], ?_⟩
      rw [NotifierRun.step]
      dsimp only
      rw [hdedup, notify_isSome h]
      show Remembers _ (List.map _ (if _ then _ else _)) call.time _
      rw [apply_ite (List.map _), List.map_append, List.map_singleton]
      exact hask

/-! ## The rate limit -/

/-- What is recent to a call is so to each other. -/
theorem recent_of_recent {a b : Blocked} (ha : Recent a call) (hb : b.time ≤ call.time) :
    Recent a b :=
  Nat.lt_of_le_of_lt (Nat.sub_le_sub_right hb _) ha

/-- Of two calls in a list of calls that are apart, one is recent to the other. -/
theorem eq_of_pairwise {sent : List Blocked} {R : Blocked → Blocked → Prop}
    (hpair : sent.Pairwise fun a b => R a b → ¬ Recent a b) (hsymm : ∀ a b, R a b → R b a)
    (hpast : ∀ a ∈ sent, a.time ≤ call.time) {a b : Blocked} (ha : a ∈ sent) (hb : b ∈ sent)
    (hra : Recent a call) (hrb : Recent b call) (hR : R a b) : a = b := by
  by_contra hne
  have hclose : sent.Pairwise fun a b => R a b → ¬ Recent a call ∨ ¬ Recent b call := by
    refine hpair.imp_of_mem fun {x y} hx hy h hxy => .inl fun hrx => h hxy ?_
    exact recent_of_recent hrx (hpast y hy)
  have hsym : Std.Symm fun a b => R a b → ¬ Recent a call ∨ ¬ Recent b call :=
    ⟨fun x y h hyx => (h (hsymm y x hyx)).symm⟩
  exact (hclose.forall ha hb hne hR).elim (· hra) (· hrb)

variable (drives) in
/-- **One call:** it is as it should be if, and only if, it is undisturbed. -/
theorem step_apart_iff (h : Tracks w now) (hapart : w.sent.Pairwise Apart) {r : NotifierRequest}
    (hnow : ∀ t ∈ r.time, now ≤ t) :
    (w.step drives r).sent.Pairwise Apart ∧ Suppresses drives w r ↔ Undisturbed w r := by
  cases r with
  | drain max => exact iff_of_true ⟨hapart, trivial⟩ trivial
  | setAskMode enabled => exact iff_of_true ⟨hapart, trivial⟩ trivial
  | blocked call =>
      have hcall : now ≤ call.time := hnow call.time rfl
      have hpast : ∀ a ∈ w.sent, a.time ≤ call.time := fun a ha =>
        Nat.le_trans (h.remembers.past _ (List.mem_map_of_mem ha)) hcall
      -- two recent notifications have neither one key nor one connection
      have hkeys : ∀ a ∈ w.sent, ∀ b ∈ w.sent, Recent a call → Recent b call → a.key = b.key →
          a = b := fun a ha b hb => by
        refine eq_of_pairwise (R := fun a b => a.key = b.key) ?_ (fun _ _ => Eq.symm) hpast ha hb
        exact (List.pairwise_map.1 h.remembers.apart).imp fun h' hkey => Nat.not_lt.2 (h' hkey)
      have hconnections : ∀ a ∈ w.sent, ∀ b ∈ w.sent, Recent a call → Recent b call →
          a.connection = b.connection → a = b := fun a ha b hb =>
        eq_of_pairwise hapart (fun _ _ => Eq.symm) hpast ha hb
      have hsent := notify_isSome_eq_false_iff drives h hcall
      cases hsome : (w.notifier.notifyBlockedConnection drives call).1.isSome with
      | false =>
          obtain ⟨a, ha, hkey, hrecent⟩ := hsent.1 hsome
          have hnone : (w.notifier.notifyBlockedConnection drives call).1 = none :=
            Option.not_isSome_iff_eq_none.1 (Bool.eq_false_iff.1 hsome)
          have hlog : (w.step drives (.blocked call)).sent = w.sent := by
            rw [NotifierRun.step, hnone]
            rfl
          rw [hlog]
          by_cases hsame : a.connection = call.connection
          · -- the notification with the key is for the connection, and there is no other
            refine iff_of_true ⟨hapart, fun _ => ⟨a, ha, hsame, hrecent⟩⟩ (iff_of_false ?_ ?_)
            · rintro ⟨b, hb, hrb, hb', hhour⟩
              obtain rfl := hconnections a ha b hb hrecent hrb (hsame.trans hb'.symm)
              exact hhour ((key_eq_iff hsame).1 hkey)
            · rintro ⟨b, hb, hrb, hb', hother⟩
              obtain rfl := hkeys a ha b hb hrecent hrb (hkey.trans hb'.symm)
              exact hother hsame
          · have hcollides : Collides w.sent call := ⟨a, ha, hrecent, hkey, hsame⟩
            refine ⟨fun hright => iff_of_true ?_ hcollides, fun hboth => ⟨hapart, fun _ => ?_⟩⟩
            · obtain ⟨b, hb, hb', hrb⟩ := hright.2 hnone
              refine ⟨b, hb, hrb, hb', fun hhour => hsame ?_⟩
              have hkeyb : b.key = call.key := (key_eq_iff hb').2 hhour
              obtain rfl := hkeys a ha b hb hrecent hrb (hkey.trans hkeyb.symm)
              exact hb'
            · obtain ⟨b, hb, hrb, hb', -⟩ := hboth.2 hcollides
              exact ⟨b, hb, hb', hrb⟩
      | true =>
          have hfree : ∀ a ∈ w.sent, Recent a call → a.key ≠ call.key := fun a ha hrecent hkey => by
            rw [hsent.2 ⟨a, ha, hkey, hrecent⟩] at hsome
            exact Bool.false_ne_true hsome
          have hlog : (w.step drives (.blocked call)).sent = w.sent ++ [call] := by
            rw [NotifierRun.step, if_pos hsome]
          have hsuppresses : Suppresses drives w (.blocked call) := fun hnone => by
            rw [hnone] at hsome
            exact absurd hsome Bool.false_ne_true
          have hcollides : ¬ Collides w.sent call := fun ⟨a, ha, hrecent, hkey, _⟩ =>
            hfree a ha hrecent hkey
          rw [hlog, and_iff_left hsuppresses, Undisturbed, iff_false_right hcollides,
            List.pairwise_append]
          constructor
          · rintro ⟨-, -, hall⟩ ⟨a, ha, hrecent, hsame, -⟩
            exact hall a ha call (List.mem_singleton_self _) hsame hrecent
          · refine fun hcross => ⟨hapart, List.pairwise_singleton _ _, fun a ha c hc hsame hrecent => ?_⟩
            obtain rfl := List.mem_singleton.1 hc
            exact hcross ⟨a, ha, hrecent, hsame, fun hhour =>
              hfree a ha hrecent ((key_eq_iff hsame).2 hhour)⟩

/-- What was sent stays. -/
theorem isPrefix_sent (requests : List NotifierRequest) (w : NotifierRun) :
    w.sent <+: (requests.foldl (NotifierRun.step drives) w).sent := by
  induction requests generalizing w with
  | nil => exact List.prefix_refl _
  | cons r requests ih =>
      refine List.IsPrefix.trans ?_ (ih (w.step drives r))
      cases r with
      | drain max => exact List.prefix_refl _
      | setAskMode enabled => exact List.prefix_refl _
      | blocked call =>
          rw [NotifierRun.step]
          dsimp only
          split_ifs
          · exact List.prefix_append _ _
          · exact List.prefix_refl _

theorem rateLimited_iff_of_tracks {requests : List NotifierRequest} (h : Tracks w now)
    (hapart : w.sent.Pairwise Apart)
    (htimes : (now :: requests.filterMap NotifierRequest.time).Pairwise (· ≤ ·)) :
    RateLimited drives w requests ↔ Along (NotifierRun.step drives) Undisturbed w requests := by
  induction requests generalizing w now with
  | nil => exact iff_of_true ⟨hapart, trivial⟩ trivial
  | cons r requests ih =>
      have hnow : ∀ t ∈ r.time, now ≤ t := fun t ht => by
        refine (List.pairwise_cons.1 htimes).1 t ?_
        rw [List.filterMap_cons, Option.mem_def.1 ht]
        exact List.mem_cons_self ..
      have hnext : (r.time.getD now :: requests.filterMap NotifierRequest.time).Pairwise (· ≤ ·) := by
        cases hr : r.time with
        | none => rwa [List.filterMap_cons, hr] at htimes
        | some t =>
            rw [List.filterMap_cons, hr] at htimes
            exact (List.pairwise_cons.1 htimes).2
      have hstep := step_apart_iff drives h hapart hnow
      constructor
      · rintro ⟨hall, hhead, htail⟩
        have hsent := hall.sublist (isPrefix_sent requests (w.step drives r)).sublist
        exact ⟨hstep.1 ⟨hsent, hhead⟩, (ih (h.step hnow) hsent hnext).1 ⟨hall, htail⟩⟩
      · rintro ⟨hhead, htail⟩
        obtain ⟨hsent, hsuppresses⟩ := hstep.2 hhead
        obtain ⟨hall, hrest⟩ := (ih (h.step hnow) hsent hnext).2 htail
        exact ⟨hall, hsuppresses, hrest⟩

/-- **When the notifications are rate limited.**  A run with notifications enabled sends no two of them
for one connection within 60 seconds, and suppresses a call only after a recent notification for its
connection, if and only if no call has a recent notification for its connection from another clock
hour, nor one with its key for another connection, unless it has both. -/
theorem rateLimited_iff (drives : Drives) {start : Notifier} (henabled : start.enabled = true)
    (hnew : start.deduplicator = .new) {requests : List NotifierRequest}
    (htimes : (requests.filterMap NotifierRequest.time).Pairwise (· ≤ ·)) :
    RateLimited drives ⟨start, []⟩ requests ↔
      Along (NotifierRun.step drives) Undisturbed ⟨start, []⟩ requests := by
  have htracks : Tracks ⟨start, []⟩ 0 :=
    ⟨henabled, by rw [hnew]; rfl, by rw [hnew]; exact remembers_nil _ _⟩
  exact rateLimited_iff_of_tracks htracks List.Pairwise.nil
    (List.pairwise_cons.2 ⟨fun t _ => Nat.zero_le t, htimes⟩)

/-! ## When the hour turns -/

/-- A blocked connection of the process 4242 to port 443, `n` seconds into the year 2026. -/
def blockedAt (n : ℕ) : Blocked where
  event := {
    action := .block
    localAddr := "192.168.1.20"
    localPort := 50000
    remoteAddr := "203.0.113.7"
    remotePort := 443
    protocol := .tcp
    direction := .outbound
    processId := some 4242
    processPath := none
    bytesSent := none
    bytesReceived := none
    packetsSent := none
    packetsReceived := none
    ruleId := none
    processName := some "updater.exe" }
  time := Duration.days 739982 + Duration.seconds n

def withoutDrives : Drives := ⟨0, fun _ => []⟩

theorem sent_blockedAt (n : ℕ) (h : (Notifier.new.notifyBlockedConnection withoutDrives
      (blockedAt n)).1.isSome = true) :
    (NotifierRun.step withoutDrives ⟨.new, []⟩ (.blocked (blockedAt n))).sent = [blockedAt n] := by
  rw [NotifierRun.step, if_pos h, List.nil_append]

/-- Two calls in one hour, 20 seconds apart. -/
theorem rateLimited_oneHour :
    RateLimited withoutDrives ⟨.new, []⟩ [.blocked (blockedAt 10), .blocked (blockedAt 30)] := by
  refine (rateLimited_iff withoutDrives rfl rfl (by decide +kernel)).2 ⟨iff_of_false ?_ ?_, ?_, trivial⟩
  · rintro ⟨a, ha, -⟩
    nomatch ha
  · rintro ⟨a, ha, -⟩
    nomatch ha
  · rw [Undisturbed, sent_blockedAt 10 (by decide +kernel)]
    refine iff_of_false ?_ ?_
    · rintro ⟨a, ha, -, -, hhour⟩
      obtain rfl := List.mem_singleton.1 ha
      exact hhour (by decide +kernel)
    · rintro ⟨a, ha, -, -, hother⟩
      obtain rfl := List.mem_singleton.1 ha
      exact hother rfl

/-- Two calls within 60 seconds, at 00:59:50 and at 01:00:10, and two notifications. -/
theorem not_rateLimited_hourTurns :
    ([3590, 3610].map fun n => (blockedAt n).time).Pairwise (· ≤ ·) ∧
      ¬ RateLimited withoutDrives ⟨.new, []⟩ ([3590, 3610].map fun n => .blocked (blockedAt n)) := by
  refine ⟨by decide +kernel, fun h => ?_⟩
  have hsent : ((List.map (fun n => NotifierRequest.blocked (blockedAt n)) [3590, 3610]).foldl
      (NotifierRun.step withoutDrives) ⟨.new, []⟩).sent = [blockedAt 3590, blockedAt 3610] := by
    rw [List.map_cons, List.foldl_cons, List.map_singleton, List.foldl_cons, List.foldl_nil,
      NotifierRun.step, if_pos (by decide +kernel), sent_blockedAt 3590 (by decide +kernel)]
    rfl
  have hapart := h.apart
  rw [hsent] at hapart
  exact (List.pairwise_cons.1 hapart).1 _ (List.mem_singleton_self _) rfl (by decide +kernel)

end Service
end Ceasefire
