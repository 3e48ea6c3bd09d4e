import Mathlib.Data.List.Induction
import ChatRelay.Chat.Api
import ChatRelay.Route.Dispatch
import ChatRelay.Proofs.Route.Registering
/-!
# Layers around a route

A service is wrapped when it is registered, by the layers that the router has
then. Layers and routes that are added later do not affect it.
-/

namespace ChatRelay

/-- A layer in two halves: its effect on a call on the way in, and on the reply
on the way out. It keeps the route of the call. -/
structure Pass (σ : Type) where
  enter : Time → Call → σ → Call × σ
  /-- The effect on a reply; the call is the one that came in. -/
  leave : Time → Call → Reply → σ → Reply × σ
  keeps : ∀ now call s, (enter now call s).1.pattern = call.pattern ∧
    (enter now call s).1.taken = call.taken

namespace Pass

variable {σ : Type}

/-- A layer that passes each call on, once. -/
def layer (p : Pass σ) : Layer σ := fun inner now call s =>
  let entered := p.enter now call s
  let answer := inner now entered.1 entered.2
  p.leave now call answer.1 answer.2

def timeout (limit : Time) : Pass σ where
  enter now call s :=
    if call.request.proto.isStreaming then (call, s)
    else ({ call with context := call.context.withDeadline (now + limit) }, s)
  leave now call reply s :=
    if call.request.proto.isStreaming then (reply, s)
    else
      let deadline :=
        (call.context.withDeadline (now + limit)).deadline.getD now
      (Layer.limited now deadline reply, s)
  keeps now call s := by split <;> exact ⟨rfl, rfl⟩

theorem layer_timeout (limit : Time) :
    (timeout limit : Pass σ).layer = Layer.timeout limit := by
  funext inner now call s
  simp only [layer, timeout, Layer.timeout]
  split <;> rfl

def requestId (next : σ → Nat × σ) : Pass σ where
  enter _ call s :=
    ({ call with
        context := { call.context with requestId := some (next s).1 } },
      (next s).2)
  leave _ _ reply s := (reply, s)
  keeps _ _ _ := ⟨rfl, rfl⟩

theorem layer_requestId (next : σ → Nat × σ) :
    (requestId next).layer = Layer.requestId next :=
  rfl

def trace : Pass σ where
  enter _ call s := (call, s)
  leave now call reply s := Layer.trace (fun _ _ s => (reply, s)) now call s
  keeps _ _ _ := ⟨rfl, rfl⟩

theorem layer_trace : (trace : Pass σ).layer = Layer.trace := rfl

/-- The layers of the chat pass each call on. -/
theorem map_layer_chat (counter : String) (limit : Time) :
    [timeout limit, trace, requestId (Room.nextId counter)].map layer =
      Chat.layers counter limit := by
  rw [List.map_cons, layer_timeout, List.map_cons, layer_trace, List.map_cons,
    layer_requestId, List.map_nil, Chat.layers]

/-- The progress of a call on its way in. -/
structure Inward (σ : Type) where
  /-- The call that each layer got, the outermost first. -/
  calls : List Call
  /-- The call that is passed on. -/
  call : Call
  state : σ

/-- The way in of a call through some layers, the first of which is the
outermost. -/
def inward (now : Time) : List (Pass σ) → Call → σ → Inward σ
  | [], call, s => ⟨[], call, s⟩
  | p :: rest, call, s =>
    let entered := p.enter now call s
    let way := inward now rest entered.1 entered.2
    { way with calls := call :: way.calls }

/-- The way out of a reply through some layers, each with the call that it
got. -/
def outward (now : Time) (layers : List (Pass σ × Call)) (reply : Reply)
    (s : σ) : Reply × σ :=
  layers.foldl (fun answer layer => layer.1.leave now layer.2 answer.1 answer.2)
    (reply, s)

/-- The way of a call in through some layers, the first of which is the
outermost, to a service, and of its reply out through the same layers. -/
def roundTrip (stack : List (Pass σ)) (service : Service σ) : Service σ :=
  fun now call s =>
  let way := inward now stack call s
  let answer := service now way.call way.state
  outward now (stack.zip way.calls).reverse answer.1 answer.2

theorem layer_roundTrip (p : Pass σ) (stack : List (Pass σ))
    (service : Service σ) :
    p.layer (roundTrip stack service) = roundTrip (p :: stack) service := by
  funext now call s
  simp only [layer, roundTrip, inward, outward, List.zip_cons_cons,
    List.reverse_cons, List.foldl_append, List.foldl_cons, List.foldl_nil]

/-- The layer that is added last is the first on the way in. -/
theorem foldl_layer (passes : List (Pass σ)) (service : Service σ) :
    (passes.map layer).foldl (fun inner l => l inner) service =
      roundTrip passes.reverse service := by
  induction passes using List.reverseRecOn with
  | nil => rfl
  | append_singleton passes p ih =>
      rw [List.map_append, List.foldl_append, ih, List.reverse_append]
      exact layer_roundTrip p passes.reverse service

/-- A service behind some layers sees the route of the call. -/
theorem inward_keeps (now : Time) (stack : List (Pass σ)) (call : Call)
    (s : σ) :
    (inward now stack call s).call.pattern = call.pattern ∧
      (inward now stack call s).call.taken = call.taken := by
  induction stack generalizing call s with
  | nil => exact ⟨rfl, rfl⟩
  | cons p stack ih =>
      obtain ⟨hpattern, htaken⟩ :=
        ih (p.enter now call s).1 (p.enter now call s).2
      obtain ⟨hpattern', htaken'⟩ := p.keeps now call s
      exact ⟨hpattern.trans hpattern', htaken.trans htaken'⟩

end Pass

namespace Mux

open Route

variable {ρ : Type}

/-- The layers that are added, in order. -/
def layersOf (acts : List (Act ρ)) : List (ρ → ρ) :=
  acts.filterMap fun
    | .layer l => some l
    | .register .. => none

theorem build_concat (acts : List (Act ρ)) (act : Act ρ) :
    build (acts ++ [act]) = (build acts).act act := by
  rw [build, List.foldl_concat, build]

theorem layersOf_concat (acts : List (Act ρ)) (act : Act ρ) :
    layersOf (acts ++ [act]) = layersOf acts ++ layersOf [act] :=
  List.filterMap_append

theorem register_layers (mux : Mux ρ) (method url : String) (service : ρ) :
    (mux.register method url service).2.layers = mux.layers := by
  unfold register
  cases Pattern.parse method url <;> rfl

theorem act_register (built : Built ρ) (method url : String) (service : ρ) :
    (built.act (.register method url service)).mux =
      (built.mux.register method url service).2 := by
  simp only [Built.act]
  generalize built.mux.register method url service = result
  split <;> rfl

theorem act_refused {built : Built ρ} {method url : String} {service : ρ}
    (h : (built.mux.register method url service).1 ≠ .ok ()) :
    (built.act (.register method url service)).routes = built.routes := by
  simp only [Built.act]
  generalize built.mux.register method url service = result at h
  split
  · exact absurd rfl h
  · rfl

/-- A registered service is wrapped by the layers of that time. -/
theorem act_accepted {built : Built ρ} {method url : String} {service : ρ}
    (h : (built.mux.register method url service).1 = .ok ()) :
    ∃ pattern, Pattern.parse method url = .ok pattern ∧
      (built.act (.register method url service)).routes =
        built.routes ++ [(pattern, built.mux.wrap service)] := by
  cases hparse : Pattern.parse method url with
  | error e =>
      rw [register, hparse] at h
      cases h
  | ok pattern =>
      refine ⟨pattern, rfl, ?_⟩
      simp only [Built.act, hparse]
      generalize built.mux.register method url service = result at h
      obtain ⟨answer, mux⟩ := result
      obtain rfl : answer = .ok () := h
      rfl

theorem layers_build (acts : List (Act ρ)) :
    (build acts).mux.layers = layersOf acts := by
  induction acts using List.reverseRecOn with
  | nil => rfl
  | append_singleton acts act ih =>
      rw [build_concat, layersOf_concat, ← ih]
      cases act with
      | layer l => rfl
      | register method url service =>
          rw [act_register, register_layers]
          exact (List.append_nil _).symm

/-- A service inside the layers of some actions. -/
def wrapped (acts : List (Act ρ)) (service : ρ) : ρ :=
  (layersOf acts).foldl (fun inner l => l inner) service

theorem wrap_build (acts : List (Act ρ)) (service : ρ) :
    (build acts).mux.wrap service = wrapped acts service := by
  rw [wrap, layers_build, wrapped]

/-- A service was registered successfully by one of some actions. -/
structure Registered (acts : List (Act ρ)) (pattern : Pattern)
    (earlier : List (Act ρ)) (service : ρ) : Prop where
  among : ∃ later,
    acts = earlier ++ .register pattern.method pattern.url service :: later
  succeeded :
    ((build earlier).mux.register pattern.method pattern.url service).1 = .ok ()

theorem Registered.more {acts : List (Act ρ)} {pattern : Pattern}
    {earlier : List (Act ρ)} {service : ρ}
    (h : Registered acts pattern earlier service) (more : List (Act ρ)) :
    Registered (acts ++ more) pattern earlier service := by
  obtain ⟨later, hacts⟩ := h.among
  exact ⟨⟨later ++ more, by rw [hacts, List.append_assoc, List.cons_append]⟩,
    h.succeeded⟩

theorem parse_eq_ok {method url : String} {pattern : Pattern}
    (h : Pattern.parse method url = .ok pattern) :
    pattern.method = method ∧ pattern.url = url := by
  unfold Pattern.parse at h
  split at h
  · exact nomatch h
  · cases h
    exact ⟨rfl, rfl⟩

/-- Every route was registered, and its service is inside the layers that were
added before. -/
theorem registered_of_mem {acts : List (Act ρ)} {route : Pattern × ρ}
    (h : route ∈ (build acts).routes) :
    ∃ earlier service, Registered acts route.1 earlier service ∧
      route.2 = wrapped earlier service := by
  induction acts using List.reverseRecOn with
  | nil => exact absurd h List.not_mem_nil
  | append_singleton acts act ih =>
      have hold (hroute : route ∈ (build acts).routes) :
          ∃ earlier service,
            Registered (acts ++ [act]) route.1 earlier service ∧
            route.2 = wrapped earlier service := by
        obtain ⟨earlier, service, hregistered, hwrapped⟩ := ih hroute
        exact ⟨earlier, service, hregistered.more [act], hwrapped⟩
      rw [build_concat] at h
      cases act with
      | layer l => exact hold h
      | register method url service =>
          by_cases hok :
            ((build acts).mux.register method url service).1 = .ok ()
          · obtain ⟨pattern, hparse, hroutes⟩ := act_accepted hok
            rw [hroutes] at h
            rcases List.mem_append.mp h with hroute | hnew
            · exact hold hroute
            · obtain rfl := List.mem_singleton.mp hnew
              obtain ⟨rfl, rfl⟩ := parse_eq_ok hparse
              exact ⟨acts, service, ⟨⟨[], rfl⟩, hok⟩, wrap_build acts service⟩
          · exact hold (act_refused hok ▸ h)

theorem routes_act_grow (built : Built ρ) (act : Act ρ) :
    built.routes <+: (built.act act).routes := by
  cases act with
  | layer l => exact List.prefix_rfl
  | register method url service =>
      by_cases hok : (built.mux.register method url service).1 = .ok ()
      · obtain ⟨pattern, -, hroutes⟩ := act_accepted hok
        rw [hroutes]
        exact List.prefix_append _ _
      · exact ⟨[], (List.append_nil _).trans (act_refused hok).symm⟩

theorem routes_grow (acts more : List (Act ρ)) :
    (build acts).routes <+: (build (acts ++ more)).routes := by
  induction more using List.reverseRecOn with
  | nil => simp
  | append_singleton more act ih =>
      rw [← List.append_assoc, build_concat]
      exact ih.trans (routes_act_grow _ act)

/-- Actions that add no route: layers, and services that are refused. -/
def TakesNone (built : Built ρ) : List (Act ρ) → Prop
  | [] => True
  | .layer l :: more => TakesNone (built.act (.layer l)) more
  | .register method url service :: more =>
    (built.mux.register method url service).1 ≠ .ok () ∧
      TakesNone (built.act (.register method url service)) more

theorem table_of_takesNone {acts more : List (Act ρ)}
    (h : TakesNone (build acts) more) :
    (build (acts ++ more)).mux.table = (build acts).mux.table := by
  induction more generalizing acts with
  | nil => rw [List.append_nil]
  | cons act more ih =>
      have hmore :
          build (acts ++ act :: more) = build ((acts ++ [act]) ++ more) := by
        simp
      rw [hmore]
      cases act with
      | layer l =>
          have hrest : TakesNone (build (acts ++ [.layer l])) more := by
            rw [build_concat]
            exact h
          rw [ih hrest, build_concat]
          rfl
      | register method url service =>
          obtain ⟨hfailed, hlater⟩ := h
          have hattempt :=
            attempt_register (build_sound acts).lists method url service
          have hrest : TakesNone
              (build (acts ++ [.register method url service])) more := by
            rw [build_concat]
            exact hlater
          rw [ih hrest, build_concat, act_register,
            hattempt.unchanged hfailed]

/-- A registered service is among the routes from then on, as it was wrapped. -/
theorem Registered.mem_routes {acts : List (Act ρ)} {pattern : Pattern}
    {earlier : List (Act ρ)} {service : ρ}
    (h : Registered acts pattern earlier service) :
    ∃ taken, Pattern.parse pattern.method pattern.url = .ok taken ∧
      (taken, wrapped earlier service) ∈ (build acts).routes := by
  obtain ⟨taken, hparse, hroutes⟩ := act_accepted h.succeeded
  obtain ⟨rest, rfl⟩ := h.among
  refine ⟨taken, hparse, ?_⟩
  have hpart :=
    routes_grow (earlier ++ [.register pattern.method pattern.url service]) rest
  rw [List.append_assoc, List.singleton_append, build_concat, hroutes,
    wrap_build] at hpart
  exact hpart.subset (List.mem_append_right _ (List.mem_singleton_self _))

/-- A registered route is not registered again. -/
theorem Registered.refused {acts : List (Act ρ)} {pattern : Pattern}
    {earlier : List (Act ρ)} {service : ρ}
    (h : Registered acts pattern earlier service) (other : ρ) :
    ((build acts).mux.register pattern.method pattern.url other).1 ≠
      .ok () := by
  obtain ⟨taken, hparse, htaken⟩ := h.mem_routes
  have hattempt :=
    attempt_register (build_sound acts).lists pattern.method pattern.url other
  have hrefused := (hattempt.taken_iff pattern.method pattern.url).mpr
    ⟨rfl, rfl, taken, hparse, _, htaken, rfl, rfl⟩
  rw [hrefused]
  exact nofun

/-- A route comes from one registration. -/
theorem Registered.unique {acts : List (Act ρ)} {pattern : Pattern}
    {earlier earlier' : List (Act ρ)} {service service' : ρ}
    (h : Registered acts pattern earlier service)
    (h' : Registered acts pattern earlier' service') :
    earlier' = earlier ∧ service' = service := by
  -- one of the two came first, and then the other was refused
  have hfirst {e e' : List (Act ρ)} {s s' : ρ} (h : Registered acts pattern e s)
      (h' : Registered acts pattern e' s') (hpart : e <+: e') : e' = e ∧
      s' = s := by
    obtain ⟨between, rfl⟩ := hpart
    obtain ⟨later, hlater⟩ := h.among
    obtain ⟨later', hlater'⟩ := h'.among
    have hboth := hlater.symm.trans hlater'
    rw [List.append_assoc, List.append_cancel_left_eq] at hboth
    cases between with
    | nil =>
        cases hboth
        exact ⟨List.append_nil _, rfl⟩
    | cons act between =>
        obtain ⟨rfl, -⟩ := List.cons.inj hboth
        have hearly : Registered (e ++ .register pattern.method pattern.url s ::
            between) pattern e s :=
          ⟨⟨between, rfl⟩, h.succeeded⟩
        exact absurd h'.succeeded (hearly.refused s')
  obtain ⟨later, hlater⟩ := h.among
  obtain ⟨later', hlater'⟩ := h'.among
  rcases List.prefix_or_prefix_of_prefix ⟨_, hlater.symm⟩ ⟨_, hlater'.symm⟩
    with hle | hle
  · exact hfirst h h' hle
  · obtain ⟨rfl, rfl⟩ := hfirst h' h hle
    exact ⟨rfl, rfl⟩

section

variable {σ : Type}

/-- A route that is still found has the service that it had. -/
theorem call_more {acts more : List (Act (Service σ))} {request : Request}
    {found found' : Table.Match (Service σ)}
    (h : (build acts).mux.route? request = some found)
    (h' : (build (acts ++ more)).mux.route? request = some found')
    (hsame : found'.pattern = found.pattern) : found' = found := by
  obtain ⟨hchosen, htaken⟩ := find?_chosen (build_sound acts).lists h
  obtain ⟨hchosen', htaken'⟩ :=
    find?_chosen (build_sound (acts ++ more)).lists h'
  have hold := (routes_grow acts more).subset hchosen.mem
  have hlists := (build_sound (acts ++ more)).lists
  have hroute :=
    (hlists found.pattern.method found.pattern.segments _).mpr ⟨hold, rfl, rfl⟩
  have hroute' := (hlists found.pattern.method found.pattern.segments _).mpr
    ⟨hchosen'.mem, congrArg Pattern.method hsame,
      congrArg (fun p => shape p.segments) hsame⟩
  rw [hroute, Option.some.injEq, Prod.mk.injEq] at hroute'
  obtain ⟨pattern, value, taken⟩ := found
  obtain ⟨pattern', value', taken'⟩ := found'
  obtain ⟨rfl, rfl⟩ : pattern = pattern' ∧ value = value' := hroute'
  obtain rfl : taken' = taken := htaken'.trans htaken.symm
  rfl

/-- A call that finds a route reaches the service of the one registration of
that route, inside the layers that were added before that registration. If these
pass calls on, the call reaches the layer added last first, then the earlier
ones, and then the service, which sees the route and its captures; and the reply
goes back the same way. Later actions on the router change nothing about this as
long as the call finds the route, which it does if no other route is added. -/
theorem layers_fixed (acts : List (Act (Service σ))) (request : Request)
    (found : Table.Match (Service σ))
    (h : (build acts).mux.route? request = some found) :
    ∃ earlier service, Registered acts found.pattern earlier service ∧
      (∀ earlier' service', Registered acts found.pattern earlier' service' →
        earlier' = earlier ∧ service' = service) ∧
      ∀ now context s,
        let call : Call :=
          { request
            context
            pattern := some found.pattern
            taken := found.taken }
        (build acts).mux.call now context request s =
          some (wrapped earlier service now call s) ∧
        (∀ passes : List (Pass σ), layersOf earlier = passes.map Pass.layer →
          let way := Pass.inward now passes.reverse call s
          let answer := service now way.call way.state
          way.call.pattern = some found.pattern ∧ way.call.taken = found.taken ∧
            wrapped earlier service now call s =
              Pass.outward now (passes.reverse.zip way.calls).reverse
                answer.1 answer.2) ∧
        (∀ more found', (build (acts ++ more)).mux.route? request =
          some found' →
          found'.pattern = found.pattern →
          (build (acts ++ more)).mux.call now context request s =
            some (wrapped earlier service now call s)) ∧
        ∀ more, TakesNone (build acts) more →
          (build (acts ++ more)).mux.call now context request s =
            some (wrapped earlier service now call s) := by
  obtain ⟨hchosen, htaken⟩ := find?_chosen (build_sound acts).lists h
  obtain ⟨earlier, service, hregistered, hvalue⟩ :=
    registered_of_mem hchosen.mem
  refine ⟨earlier, service, hregistered, fun _ _ => hregistered.unique, ?_⟩
  intro now context s call
  have hcall {acts' : List (Act (Service σ))}
      (h' : (build acts').mux.route? request = some found) :
      (build acts').mux.call now context request s =
        some (wrapped earlier service now call s) := by
    rw [Mux.call, h', Option.map_some, ← hvalue]
  refine ⟨hcall h, ?_, ?_, ?_⟩
  · intro passes hpasses way answer
    obtain ⟨hpattern, htaken⟩ := Pass.inward_keeps now passes.reverse call s
    refine ⟨hpattern, htaken, ?_⟩
    rw [wrapped, hpasses, Pass.foldl_layer]
    rfl
  · intro more found' h' hsame
    exact hcall (call_more h h' hsame ▸ h')
  · intro more hnone
    apply hcall
    rw [route?, table_of_takesNone hnone]
    exact h

end

/-- A layer that records each call on the way in and on the way out. -/
def recordingLayer (name : String) : Pass (List String) where
  enter _ call s := (call, s ++ [name])
  leave _ _ reply s := (reply, s ++ [name])
  keeps _ _ _ := ⟨rfl, rfl⟩

/-- A service that records its captures. -/
def recordingService : Service (List String) :=
  fun _ call s => (.now (.ok ""), s ++ call.taken)

def sampleLayered : List (Act (Service (List String))) :=
  [.layer (recordingLayer "a").layer, .layer (recordingLayer "b").layer,
    .register "GET" "/x/{id}" recordingService]

/-- A layer and two routes that are refused. -/
def sampleIdle : List (Act (Service (List String))) :=
  [.layer (recordingLayer "c").layer, .register "" "/" recordingService,
    .register "GET" "x/{name}/" recordingService]

/-- The same, and a route that other calls find. -/
def sampleLater : List (Act (Service (List String))) :=
  sampleIdle ++ [.register "GET" "/x/y" recordingService]

theorem sampleLayered_fixed :
    let request : Request := { method := "GET", url := "/x/7" }
    let notes (acts : List (Act (Service (List String)))) :
        Option (List String) :=
      ((build acts).mux.call 0 {} request []).map Prod.snd
    TakesNone (build sampleLayered) sampleIdle ∧
      notes sampleLayered = some ["b", "a", "7", "a", "b"] ∧
      notes (sampleLayered ++ sampleIdle) = some ["b", "a", "7", "a", "b"] ∧
      notes (sampleLayered ++ sampleLater) =
        some ["b", "a", "7", "a", "b"] := by
  intro request notes
  have hfound : ((build sampleLayered).mux.route? request).isSome := by
    decide +kernel
  have hfound' :
      ((build (sampleLayered ++ sampleLater)).mux.route? request).isSome := by
    decide +kernel
  obtain ⟨found, h⟩ := Option.isSome_iff_exists.mp hfound
  obtain ⟨found', h'⟩ := Option.isSome_iff_exists.mp hfound'
  have hsample :
      ((build sampleLayered).mux.route? request).map Table.Match.pattern =
      some ⟨"GET", "/x/{id}", [.literal "x", .wildcard "id"]⟩ := by
    decide +kernel
  have hpattern :
      found.pattern = ⟨"GET", "/x/{id}", [.literal "x", .wildcard "id"]⟩ := by
    rw [h] at hsample
    exact Option.some.inj hsample
  have hsame : found'.pattern = found.pattern := by
    have hlater :
        ((build (sampleLayered ++ sampleLater)).mux.route? request).map
        Table.Match.pattern = ((build sampleLayered).mux.route? request).map
        Table.Match.pattern := by decide +kernel
    rw [h, h'] at hlater
    exact Option.some.inj hlater
  have htaken : ((build sampleLayered).mux.route? request).map
      Table.Match.taken = some ["7"] := by
    decide +kernel
  rw [h] at htaken
  obtain ⟨earlier, service, -, hunique, hcalls⟩ :=
    layers_fixed sampleLayered request found h
  have hregistered :
      Registered sampleLayered found.pattern (sampleLayered.take 2)
        recordingService := by
    rw [hpattern]
    exact ⟨⟨[], rfl⟩, by decide +kernel⟩
  obtain ⟨rfl, rfl⟩ := hunique _ _ hregistered
  obtain ⟨hcall, hpasses, hmore, hidle⟩ := hcalls 0 {} []
  obtain ⟨-, -, hwrapped⟩ :=
    hpasses [recordingLayer "a", recordingLayer "b"] rfl
  have hnotes : (wrapped (sampleLayered.take 2) recordingService 0
      { request
        context := {}
        pattern := some found.pattern
        taken := found.taken } []).2 =
      ["b", "a", "7", "a", "b"] := by
    rw [hwrapped, Option.some.inj htaken]
    rfl
  have hnone : TakesNone (build sampleLayered) sampleIdle :=
    ⟨by decide +kernel, by decide +kernel, trivial⟩
  refine ⟨hnone, ?_, ?_, ?_⟩
  · exact (congrArg (Option.map Prod.snd) hcall).trans (congrArg some hnotes)
  · exact (congrArg (Option.map Prod.snd) (hidle sampleIdle hnone)).trans
      (congrArg some hnotes)
  · exact
      (congrArg (Option.map Prod.snd) (hmore sampleLater found' h' hsame)).trans
      (congrArg some hnotes)

end Mux

end ChatRelay
