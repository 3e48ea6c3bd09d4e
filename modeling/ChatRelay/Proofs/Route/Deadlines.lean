import Mathlib.Order.Lattice.Nat
import ChatRelay.Proofs.Route.Layering
import ChatRelay.Route.Sample
/-!
# Deadlines of nested layers

Timeouts around a service, nested and with layers between them that number or
trace calls, act like one timeout. The service sees the earliest of all
deadlines, and its response is the reply if it comes by then; otherwise the
innermost timeout that expires gives up the call at that very moment, before the
timeouts around it expire.
-/

namespace ChatRelay

namespace Reply

/-- The reply without its trace records. -/
def unrecorded : Reply → Reply
  | ready delay response _ => ready delay response []
  | never => never
  | broken message => broken message

/-- The reply is a response after some time. -/
def Answers (reply : Reply) (delay : Time) (response : Response) : Prop :=
  ∃ records, reply = ready delay response records

/-- The call is given up at some time. -/
def GivesUp (reply : Reply) (now time : Time) : Prop :=
  ∃ delay response, reply.Answers delay response ∧ now + delay = time ∧
    response.code = 502 ∧ response.status = "deadline exceeded" ∧
    response.body = ""

theorem answers_iff {reply : Reply} {delay : Time} {response : Response} :
    reply.Answers delay response ↔
      reply.unrecorded = ready delay response [] := by
  cases reply <;> simp [Answers, unrecorded]

end Reply

namespace Layer

/-- The reply to a call whose service is too late. -/
def givenUp (now deadline : Time) : Reply :=
  .ready (deadline - now) (.refuse Status.badGateway tooLate) []

theorem limited_ready (now deadline delay : Nat) (response : Response)
    (records : List Record) :
    limited now deadline (.ready delay response records) =
      if delay = 0 ∨ now + delay ≤ deadline then .ready delay response records
      else givenUp now deadline := rfl

theorem limited_never (now deadline : Time) :
    limited now deadline .never = givenUp now deadline :=
  rfl

theorem limited_unrecorded (now deadline : Time) (reply : Reply) :
    (limited now deadline reply).unrecorded =
      limited now deadline reply.unrecorded := by
  cases reply with
  | ready delay response records =>
      rw [Reply.unrecorded, limited_ready, limited_ready]
      by_cases hready : delay = 0 ∨ now + delay ≤ deadline
      · rw [if_pos hready, if_pos hready, Reply.unrecorded]
      · rw [if_neg hready, if_neg hready, givenUp, Reply.unrecorded]
  | never => rfl
  | broken message => rfl

theorem limited_givenUp (now first second : Nat) :
    limited now first (givenUp now second) =
      givenUp now (min first second) := by
  rw [givenUp, limited_ready]
  split
  · next hready =>
      have hsame : second - now = min first second - now := by omega
      rw [hsame, givenUp]
  · next hready =>
      have hfirst : min first second = first := by omega
      rw [hfirst]

theorem inTime_min (now first second delay : Nat) :
    (delay = 0 ∨ now + delay ≤ min first second) ↔
      (delay = 0 ∨ now + delay ≤ first) ∧
      (delay = 0 ∨ now + delay ≤ second) := by
  omega

theorem givesUp_givenUp {reply : Reply} {now deadline : Nat}
    (h : reply.unrecorded = givenUp now deadline) :
    reply.GivesUp now (max now deadline) := by
  refine ⟨deadline - now, _, Reply.answers_iff.mpr h, ?_, rfl, rfl, rfl⟩
  rw [Nat.add_comm, Nat.sub_add_eq_max, Nat.max_comm]

/-- Of two timeouts the earlier one counts. -/
theorem limited_limited (now first second : Nat) (reply : Reply) :
    limited now first (limited now second reply) =
      limited now (min first second) reply := by
  cases reply with
  | ready delay response records =>
      have hboth := inTime_min now first second delay
      rw [limited_ready now second, limited_ready now (min first second)]
      by_cases hsecond : delay = 0 ∨ now + delay ≤ second
      · rw [if_pos hsecond, limited_ready]
        by_cases hfirst : delay = 0 ∨ now + delay ≤ first
        · rw [if_pos hfirst, if_pos (hboth.mpr ⟨hfirst, hsecond⟩)]
        · have hle : first ≤ second := by
            by_contra hlt
            exact hfirst
              (hsecond.imp_right fun h => h.trans (Nat.le_of_not_le hlt))
          rw [if_neg hfirst, if_neg fun h => hfirst (hboth.mp h).1,
            Nat.min_eq_left hle]
      · rw [if_neg hsecond, if_neg fun h => hsecond (hboth.mp h).2,
          limited_givenUp]
  | never => rw [limited_never, limited_never, limited_givenUp]
  | broken message => rfl

end Layer

/-- A timeout, a numbering or a tracing layer. -/
inductive Wrap (σ : Type) where
  | timeout (limit : Time)
  | requestId (next : σ → Nat × σ)
  | trace

namespace Wrap

variable {σ : Type}

def layer : Wrap σ → Layer σ
  | timeout limit => Layer.timeout limit
  | requestId next => Layer.requestId next
  | trace => Layer.trace

/-- The layer in two halves. -/
def pass : Wrap σ → Pass σ
  | timeout limit => Pass.timeout limit
  | requestId next => Pass.requestId next
  | trace => Pass.trace

theorem layer_pass (w : Wrap σ) : w.pass.layer = w.layer := by
  cases w with
  | timeout limit => exact Pass.layer_timeout limit
  | requestId next => exact Pass.layer_requestId next
  | trace => exact Pass.layer_trace

def limit? : Wrap σ → Option Time
  | timeout limit => some limit
  | requestId _ => none
  | trace => none

def limits (stack : List (Wrap σ)) : List Time := stack.filterMap limit?

theorem limits_cons_eq_nil {w : Wrap σ} {stack : List (Wrap σ)} :
    limits (w :: stack) = [] ↔ w.limit? = none ∧ limits stack = [] := by
  simp [limits]

/-- The deadlines of a call that reaches a stack now: its own, and the ends of
the timeouts. -/
def ends (now : Time) (deadline : Option Time) (stack : List (Wrap σ)) :
    Set Time :=
  {t | deadline = some t ∨ ∃ limit ∈ limits stack, t = now + limit}

/-- The call that a service gets behind a stack, whose first layer is the
outermost. -/
def inward (now : Time) (stack : List (Wrap σ)) (call : Call) (s : σ) :
    Pass.Inward σ :=
  Pass.inward now (stack.map pass) call s

/-- A service behind a stack, whose first layer is the outermost. -/
def around (stack : List (Wrap σ)) (service : Service σ) : Service σ :=
  Pass.roundTrip (stack.map pass) service

theorem around_cons (w : Wrap σ) (stack : List (Wrap σ)) (service : Service σ) :
    around (w :: stack) service = w.pass.layer (around stack service) := by
  rw [around, List.map_cons, ← Pass.layer_roundTrip, around]

/-- In a router the layer added last is the outermost. -/
theorem wrap_eq_around {mux : Mux (Service σ)} {stack : List (Wrap σ)}
    (h : mux.layers = stack.map layer) (service : Service σ) :
    mux.wrap service = around stack.reverse service := by
  have hlayers : mux.layers = (stack.map pass).map Pass.layer := by
    rw [h, List.map_map]
    exact List.map_congr_left fun w _ => (layer_pass w).symm
  rw [Mux.wrap, hlayers, Pass.foldl_layer, around, List.map_reverse]

section Seen

variable {now : Time} {call : Call} {s : σ}

theorem enter_timeout (hproto : call.request.proto.isStreaming = false)
    (now limit : Time) :
    (timeout limit : Wrap σ).pass.enter now call s =
      ({ call with context := call.context.withDeadline (now + limit) }, s) :=
  if_neg (by simp [hproto])

/-- Layers change neither the connection nor the request of a call. -/
theorem enter_call (w : Wrap σ) (now : Time) (call : Call) (s : σ) :
    ∃ context, (w.pass.enter now call s).1 = { call with context } ∧
      context.connection = call.context.connection := by
  cases w with
  | timeout limit =>
      simp only [pass, Pass.timeout]
      split
      · exact ⟨call.context, rfl, rfl⟩
      · exact ⟨_, rfl, rfl⟩
  | requestId next => exact ⟨_, rfl, rfl⟩
  | trace => exact ⟨call.context, rfl, rfl⟩

theorem inward_call (stack : List (Wrap σ)) (now : Time) (call : Call) (s : σ) :
    ∃ context, (inward now stack call s).call = { call with context } ∧
      context.connection = call.context.connection := by
  induction stack generalizing call s with
  | nil => exact ⟨call.context, rfl, rfl⟩
  | cons w stack ih =>
      obtain ⟨context, hcall, hconnection⟩ := enter_call w now call s
      obtain ⟨context', hcall', hconnection'⟩ :=
        ih (w.pass.enter now call s).1 (w.pass.enter now call s).2
      rw [hcall] at hcall' hconnection'
      refine ⟨context', ?_, hconnection'.trans hconnection⟩
      change (inward now stack (w.pass.enter now call s).1 _).call = _
      rw [hcall, hcall']

theorem ends_unlimited (now : Time) {stack : List (Wrap σ)}
    (h : limits stack = []) :
    ends now none stack = ∅ := by
  simp [ends, h]

theorem ends_some (now deadline : Time) (stack : List (Wrap σ)) :
    ends now (some deadline) stack = insert deadline (ends now none stack) := by
  ext time
  simp [ends, eq_comm]

theorem ends_timeout (now limit : Time) (deadline : Option Time)
    (stack : List (Wrap σ)) :
    ends now deadline (timeout limit :: stack) =
      insert (now + limit) (ends now deadline stack) := by
  have hlimits : limits (timeout limit :: stack) = limit :: limits stack := rfl
  ext time
  simp only [ends, hlimits, List.mem_cons, exists_eq_or_imp, Set.mem_ofPred_eq,
    Set.mem_insert_iff]
  exact or_left_comm

/-- Two elements may be replaced by the smaller one. -/
theorem isLeast_insert_min (first second time : Nat) (times : Set Nat) :
    IsLeast (insert (min first second) times) time ↔
      IsLeast (insert first (insert second times)) time := by
  have hbounds : time ∈ lowerBounds (insert (min first second) times) ↔
      time ∈ lowerBounds (insert first (insert second times)) := by
    simp only [lowerBounds_insert, Set.mem_inter_iff, Set.mem_Iic,
      le_min_iff, and_assoc]
  rw [IsLeast, IsLeast, hbounds]
  refine and_congr_left fun hlower => ?_
  -- the later one of the two times is no lower bound, unless they are the same
  have hle : time ≤ min first second :=
    le_min (hlower (Set.mem_insert _ _))
      (hlower (Set.mem_insert_of_mem _ (Set.mem_insert _ _)))
  simp only [Set.mem_insert_iff, ← or_assoc]
  refine or_congr_left ⟨fun h => ?_, fun h => ?_⟩ <;> omega

/-- A timeout sets the earlier one of two deadlines, and the earliest of all is
kept. -/
theorem isLeast_ends_timeout (now limit time : Time) (context : Context)
    (stack : List (Wrap σ)) :
    IsLeast (ends now (context.withDeadline (now + limit)).deadline stack)
      time ↔
      IsLeast (ends now context.deadline (timeout limit :: stack)) time := by
  rw [ends_timeout, Context.withDeadline]
  cases context.deadline with
  | none => rw [Option.elim_none, ends_some]
  | some deadline =>
      rw [Option.elim_some, ends_some, ends_some, isLeast_insert_min,
        Set.insert_comm]

/-- The deadline that the service sees is the earliest one. -/
theorem inward_deadline (hproto : call.request.proto.isStreaming = false)
    (stack : List (Wrap σ)) (time : Time) :
    (inward now stack call s).call.context.deadline = some time ↔
      IsLeast (ends now call.context.deadline stack) time := by
  induction stack generalizing call s with
  | nil =>
      change call.context.deadline = some time ↔ _
      have hnone : ends now none ([] : List (Wrap σ)) = ∅ :=
        ends_unlimited now rfl
      cases call.context.deadline with
      | none => simp [hnone, IsLeast]
      | some deadline =>
          rw [ends_some, hnone, insert_empty_eq,
            isLeast_singleton.isLeast_iff_eq, Option.some_inj]
  | cons w stack ih =>
      cases w with
      | timeout limit =>
          have henter := enter_timeout (s := s) hproto now limit
          change (inward now stack ((timeout limit).pass.enter now call s).1
            _).call.context.deadline = some time ↔ _
          rw [← isLeast_ends_timeout, henter]
          exact ih hproto
      | requestId next => exact ih hproto
      | trace => exact ih hproto

theorem inward_deadline_streaming
    (hproto : call.request.proto.isStreaming = true) (stack : List (Wrap σ)) :
    (inward now stack call s).call.context.deadline =
      call.context.deadline := by
  induction stack generalizing call s with
  | nil => rfl
  | cons w stack ih =>
      cases w with
      | timeout limit =>
          have henter :
              (timeout limit : Wrap σ).pass.enter now call s = (call, s) :=
            if_pos hproto
          change (inward now stack ((timeout limit).pass.enter now call s).1
            _).call.context.deadline = _
          rw [henter]
          exact ih hproto
      | requestId next => exact ih hproto
      | trace => exact ih hproto

end Seen

section Heard

variable {now : Time} {call : Call} {s : σ}

/-- The service's own reply behind a stack. -/
def answer (now : Time) (stack : List (Wrap σ)) (service : Service σ)
    (call : Call) (s : σ) : Reply × σ :=
  service now (inward now stack call s).call (inward now stack call s).state

theorem answer_cons (w : Wrap σ) (stack : List (Wrap σ)) (service : Service σ) :
    answer now (w :: stack) service call s =
      answer now stack service (w.pass.enter now call s).1
        (w.pass.enter now call s).2 :=
      rfl

theorem around_step (w : Wrap σ) (stack : List (Wrap σ)) (service : Service σ) :
    around (w :: stack) service now call s =
      w.pass.leave now call
        (around stack service now (w.pass.enter now call s).1
          (w.pass.enter now call s).2).1
        (around stack service now (w.pass.enter now call s).1
          (w.pass.enter now call s).2).2 := by
  rw [around_cons]
  rfl

theorem leave_state (w : Wrap σ) (reply : Reply) :
    (w.pass.leave now call reply s).2 = s := by
  cases w with
  | timeout limit =>
      simp only [pass, Pass.timeout]
      split <;> rfl
  | requestId next => rfl
  | trace => cases reply <;> rfl

theorem leave_unlimited {w : Wrap σ}
    (h : call.request.proto.isStreaming = true ∨ w.limit? = none)
    (reply : Reply) :
    (w.pass.leave now call reply s).1.unrecorded = reply.unrecorded := by
  cases w with
  | timeout limit =>
      have hproto : call.request.proto.isStreaming = true := by
        simpa [limit?] using h
      simp only [pass, Pass.timeout, if_pos hproto]
  | requestId next => rfl
  | trace => cases reply <;> rfl

theorem leave_timeout (hproto : call.request.proto.isStreaming = false)
    {limit deadline : Time}
    (hdeadline : (call.context.withDeadline (now + limit)).deadline =
      some deadline)
    (reply : Reply) :
    ((timeout limit : Wrap σ).pass.leave now call reply s).1.unrecorded =
      Layer.limited now deadline reply.unrecorded := by
  simp only [pass, Pass.timeout, hproto, Bool.false_eq_true, ↓reduceIte,
    hdeadline, Option.getD_some, Layer.limited_unrecorded]

/-- Layers do not change the state on the way out. -/
theorem around_state (stack : List (Wrap σ)) (service : Service σ) :
    (around stack service now call s).2 =
      (answer now stack service call s).2 := by
  induction stack generalizing call s with
  | nil => rfl
  | cons w stack ih =>
      rw [around_step, answer_cons, ← ih]
      exact leave_state w _

/-- Without a timeout the reply is that of the service. -/
theorem around_unlimited {stack : List (Wrap σ)}
    (h : call.request.proto.isStreaming = true ∨ limits stack = [])
    (service : Service σ) :
    (around stack service now call s).1.unrecorded =
      (answer now stack service call s).1.unrecorded := by
  induction stack generalizing call s with
  | nil => rfl
  | cons w stack ih =>
      obtain ⟨context, hcall, -⟩ := enter_call w now call s
      have hw : call.request.proto.isStreaming = true ∨ w.limit? = none :=
        h.imp_right fun hnone => (limits_cons_eq_nil.mp hnone).1
      have hrest :
          (w.pass.enter now call s).1.request.proto.isStreaming = true ∨
          limits stack = [] := by
        rw [hcall]
        exact h.imp_right fun hnone => (limits_cons_eq_nil.mp hnone).2
      rw [around_step, answer_cons, ← ih hrest]
      exact leave_unlimited hw _

/-- With timeouts, the reply of the service is limited by the earliest of all
deadlines. -/
theorem around_limited (hproto : call.request.proto.isStreaming = false)
    {stack : List (Wrap σ)} (hlimits : limits stack ≠ []) {deadline : Time}
    (hdeadline : IsLeast (ends now call.context.deadline stack) deadline)
    (service : Service σ) :
    (around stack service now call s).1.unrecorded =
      Layer.limited now deadline
        (answer now stack service call s).1.unrecorded := by
  induction stack generalizing call s with
  | nil => exact absurd rfl hlimits
  | cons w stack ih =>
      cases w with
      | timeout limit =>
          let inner : Call :=
            { call with context := call.context.withDeadline (now + limit) }
          have henter : (timeout limit).pass.enter now call s = (inner, s) :=
            enter_timeout hproto now limit
          obtain ⟨first, hfirst⟩ : ∃ first,
              inner.context.deadline = some first :=
            ⟨_, rfl⟩
          have hinner :
              IsLeast (ends now inner.context.deadline stack) deadline :=
            (isLeast_ends_timeout now limit deadline call.context stack).mpr
              hdeadline
          have hleast :
              IsLeast (insert first (ends now none stack)) deadline := by
            rw [← ends_some, ← hfirst]
            exact hinner
          have hleave : (around (timeout limit :: stack) service now call
              s).1.unrecorded =
              Layer.limited now first
                (around stack service now inner s).1.unrecorded := by
            rw [around_step, henter]
            exact leave_timeout hproto hfirst _
          rw [hleave, answer_cons, henter]
          by_cases hrest : limits stack = []
          · -- the last limit on the way in gives up the call
            rw [ends_unlimited now hrest, insert_empty_eq,
              isLeast_singleton.isLeast_iff_eq] at hleast
            rw [around_unlimited (.inr hrest), hleast]
          · -- a limit further in is as early at least
            have hsame : inner.request.proto.isStreaming = false := hproto
            rw [ih hsame hrest hinner, Layer.limited_limited,
              Nat.min_eq_right (hleast.2 (Set.mem_insert first _))]
      | requestId next =>
          rw [around_step, answer_cons]
          exact (leave_unlimited (.inr rfl) _).trans
            (ih hproto hlimits hdeadline)
      | trace =>
          rw [around_step, answer_cons]
          exact (leave_unlimited (.inr rfl) _).trans
            (ih hproto hlimits hdeadline)

end Heard

theorem limits_reverse (stack : List (Wrap σ)) :
    limits stack.reverse = (limits stack).reverse :=
  List.filterMap_reverse

theorem ends_reverse (now : Time) (deadline : Option Time)
    (stack : List (Wrap σ)) :
    ends now deadline stack.reverse = ends now deadline stack := by
  simp only [ends, limits_reverse, List.mem_reverse]

theorem exists_isLeast_ends (now : Time) (deadline : Option Time)
    {stack : List (Wrap σ)} (h : limits stack ≠ []) :
    ∃ time, IsLeast (ends now deadline stack) time := by
  obtain ⟨limit, hlimit⟩ := List.exists_mem_of_ne_nil _ h
  have hsome : (ends now deadline stack).Nonempty :=
    ⟨now + limit, .inr ⟨limit, hlimit, rfl⟩⟩
  exact ⟨sInf (ends now deadline stack), Nat.sInf_mem hsome,
    fun _ => Nat.sInf_le⟩

/-- A service inside timeouts, with numbering and tracing layers anywhere
between them, sees the earliest of the deadline that the call came with and the
ends of all timeouts. If it is ready at once or by then, its own response is the
reply; otherwise, and if it never is, the call is given up at that time, or at
once if that is past. A streaming call keeps the deadline that it came with, and
its reply is the response of the service, whenever that is ready. -/
theorem deadlines_compose {mux : Mux (Service σ)} {stack : List (Wrap σ)}
    (hstack : mux.layers = stack.map layer) (hlimits : limits stack ≠ [])
    (now : Time) (call : Call) (s : σ) :
    ∃ context s', context.connection = call.context.connection ∧
      (∀ service, (mux.wrap service now call s).2 =
        (service now { call with context } s').2) ∧
      (call.request.proto.isStreaming = false →
        ∃ deadline, IsLeast (ends now call.context.deadline stack) deadline ∧
          context.deadline = some deadline ∧
          (∀ service delay response,
            (service now { call with context } s').1.Answers delay response →
              if delay = 0 ∨ now + delay ≤ deadline then
                (mux.wrap service now call s).1.Answers delay response
              else (mux.wrap service now call s).1.GivesUp now
                (max now deadline)) ∧
          ∀ service, (service now { call with context } s').1 = .never →
            (mux.wrap service now call s).1.GivesUp now (max now deadline)) ∧
      (call.request.proto.isStreaming = true →
        context.deadline = call.context.deadline ∧
          ∀ service delay response,
            (service now { call with context } s').1.Answers delay response →
              (mux.wrap service now call s).1.Answers delay response) := by
  obtain ⟨context, hcall, hconnection⟩ := inward_call stack.reverse now call s
  have hanswer (service : Service σ) : answer now stack.reverse service call s =
      service now { call with context }
        (inward now stack.reverse call s).state := by
    rw [answer, hcall]
  refine ⟨context, (inward now stack.reverse call s).state, hconnection,
    fun service => ?_, fun hproto => ?_, fun hproto => ?_⟩
  · rw [wrap_eq_around hstack, around_state, hanswer]
  · have hreverse : limits stack.reverse ≠ [] := by
      rw [limits_reverse, ne_eq, List.reverse_eq_nil_iff]
      exact hlimits
    obtain ⟨deadline, hleast⟩ :=
      exists_isLeast_ends now call.context.deadline hlimits
    have hleast' :
        IsLeast (ends now call.context.deadline stack.reverse) deadline := by
      rw [ends_reverse]
      exact hleast
    have hdeadline :=
      (inward_deadline (s := s) hproto stack.reverse deadline).mpr hleast'
    rw [hcall] at hdeadline
    have hlimited (service : Service σ) :=
      around_limited (s := s) hproto hreverse hleast' service
    simp only [hanswer, ← wrap_eq_around hstack] at hlimited
    refine ⟨deadline, hleast, hdeadline, fun service delay response hready =>
      ?_, fun service hnever => ?_⟩
    · have hreply := hlimited service
      rw [Reply.answers_iff.mp hready, Layer.limited_ready] at hreply
      split at hreply
      · next hintime => rwa [if_pos hintime, Reply.answers_iff]
      · next hlate =>
          rw [if_neg hlate]
          exact Layer.givesUp_givenUp hreply
    · apply Layer.givesUp_givenUp
      rw [hlimited service, hnever, Reply.unrecorded, Layer.limited_never]
  · have hdeadline : (inward now stack.reverse call s).call.context.deadline =
        call.context.deadline := inward_deadline_streaming hproto stack.reverse
    rw [hcall] at hdeadline
    refine ⟨hdeadline, fun service delay response hready => ?_⟩
    rw [Reply.answers_iff] at hready ⊢
    rw [wrap_eq_around hstack, around_unlimited (.inl hproto), hanswer, hready]

/-- Two timeouts, with a numbering and a tracing layer between them and around
them. -/
def sampleStack : List (Wrap Nat) :=
  [.timeout 50, .requestId fun n => (n + 1, n + 1), .timeout 20, .trace]

/-- A call with a deadline that is earlier than the ends of both timeouts. -/
def sampleUrgent : Call :=
  { Call.bare with context := { deadline := some 115 } }

theorem sampleStack_compose :
    let mux : Mux (Service Nat) := { layers := sampleStack.map layer }
    let reply (delay : Time) : Reply :=
      (mux.wrap (Sample.sleep delay).service 100 sampleUrgent 0).1
    mux.layers = sampleStack.map layer ∧ limits sampleStack ≠ [] ∧
      (reply 15).Answers 15 (.ok "slept") ∧ (reply 16).GivesUp 100 115 := by
  intro mux reply
  have hlimits : limits sampleStack ≠ [] := by decide
  obtain ⟨context, s', -, -, hcalls, -⟩ :=
    deadlines_compose (rfl : mux.layers = sampleStack.map layer) hlimits 100
      sampleUrgent 0
  obtain ⟨deadline, hleast, -, hreplies, -⟩ := hcalls rfl
  have hsample :
      IsLeast (ends 100 sampleUrgent.context.deadline sampleStack) 115 := by
    refine ⟨.inl rfl, fun time htime => ?_⟩
    rcases htime with hown | ⟨limit, hlimit, rfl⟩
    · exact (Option.some.inj hown).le
    · revert limit
      decide
  obtain rfl := hleast.unique hsample
  refine ⟨rfl, hlimits, ?_, ?_⟩
  · exact hreplies (Sample.sleep 15).service 15 (.ok "slept") ⟨[], rfl⟩
  · exact hreplies (Sample.sleep 16).service 16 (.ok "slept") ⟨[], rfl⟩

end Wrap

end ChatRelay
