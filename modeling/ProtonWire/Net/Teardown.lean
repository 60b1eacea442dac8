import ProtonWire.Net.Session

/-!
# Connect, then disconnect

What the two sequences leave of the routing state, whatever other managers change in between.

* `replay_adds`, `replay_dels`: adding operations is a union, deleting what is present a difference;
* `installed_spec`: what a connect reports as installed was not there before;
* **`disconnect_leaves_no_trace`**: a disconnect takes exactly what its connect installed.
-/

namespace ProtonWire

open Rollback

/-- The objects of a list of operations. -/
def objectsOf (ops : List NetOp) : Finset NetObject := (ops.map NetOp.object).toFinset

theorem mem_objectsOf {ops : List NetOp} {object : NetObject} :
    object ∈ objectsOf ops ↔ ∃ op ∈ ops, op.object = object := by
  simp [objectsOf]

theorem objectsOf_cons (op : NetOp) (ops : List NetOp) :
    objectsOf (op :: ops) = insert op.object (objectsOf ops) := by
  simp [objectsOf]

/-- Adding operations make a union. -/
theorem replay_adds {ops : List NetOp} (hadd : ∀ op ∈ ops, op.isAdd = true)
    (routing : Finset NetObject) :
    replay NetOp.effect ops routing = routing ∪ objectsOf ops := by
  induction ops generalizing routing with
  | nil => simp [objectsOf]
  | cons op ops ih =>
    rw [replay_cons, ih fun op' hop' => hadd op' (List.mem_cons_of_mem _ hop'), NetOp.effect,
      if_pos (hadd op List.mem_cons_self), objectsOf_cons, Finset.insert_union, Finset.union_insert]

/-- Repairing what is missing gives every desired object. -/
theorem replay_repairOps {desired : List NetOp} (hadd : ∀ op ∈ desired, op.isAdd = true)
    (routing : Finset NetObject) :
    replay NetOp.effect (repairOps desired (desired.filter fun op => op.object ∈ routing)) routing =
      routing ∪ objectsOf desired := by
  rw [repairOps, replay_adds fun op hop => hadd op (List.mem_of_mem_filter hop)]
  ext object
  simp only [Finset.mem_union, mem_objectsOf, List.mem_filter, decide_eq_true_eq, not_and]
  constructor
  · rintro (hmem | ⟨op, ⟨hop, -⟩, rfl⟩)
    · exact Or.inl hmem
    · exact Or.inr ⟨op, hop, rfl⟩
  · rintro (hmem | ⟨op, hop, rfl⟩)
    · exact Or.inl hmem
    · by_cases hpresent : op.object ∈ routing
      · exact Or.inl hpresent
      · exact Or.inr ⟨op, ⟨hop, fun _ => hpresent⟩, rfl⟩

theorem replay_dels {ops : List NetOp} (hadd : ∀ op ∈ ops, op.isAdd = true)
    (routing : Finset NetObject) :
    replay NetOp.effect (ops.map inverse) routing = routing \ objectsOf ops := by
  induction ops generalizing routing with
  | nil => simp [objectsOf]
  | cons op ops ih =>
    have hdel : (inverse op).isAdd = false := by
      rw [NetOp.isAdd_inverse, hadd op List.mem_cons_self, Bool.not_true]
    rw [List.map_cons, replay_cons, ih fun op' hop' => hadd op' (List.mem_cons_of_mem _ hop'),
      NetOp.effect,
      if_neg (by rw [hdel]; nofun), NetOp.object_inverse, objectsOf_cons, Finset.sdiff_insert]
    exact Finset.erase_sdiff_comm _ _ _

theorem objectsOf_changing {ops : List NetOp} (hadd : ∀ op ∈ ops, op.isAdd = true)
    (routing : Finset NetObject) :
    objectsOf (changing NetOp.effect ops routing) = objectsOf ops \ routing := by
  induction ops generalizing routing with
  | nil => simp [changing, objectsOf]
  | cons op ops ih =>
    have hrest := ih fun op' hop' => hadd op' (List.mem_cons_of_mem _ hop')
    have heffect : op.effect routing = insert op.object routing :=
      if_pos (hadd op List.mem_cons_self)
    rw [changing, heffect]
    split_ifs with hsame
    · have hmem : op.object ∈ routing := Finset.insert_eq_self.mp hsame
      rw [hrest, objectsOf_cons, Finset.insert_sdiff_of_mem _ hmem]
    · have hmem : op.object ∉ routing := fun hmem => hsame (Finset.insert_eq_self.mpr hmem)
      rw [objectsOf_cons, hrest, objectsOf_cons, Finset.insert_sdiff_of_notMem _ hmem]
      ext object
      simp only [Finset.mem_insert, Finset.mem_sdiff]
      tauto

/-! ## The sequences -/

section
variable {σ : Type*} {E : NetlinkExecutor σ} {routing : σ → Finset NetObject}

theorem sessionOps_admitted (plan : TablePlan) (inputs : ConnectInputs) :
    ∀ op ∈ sessionOps plan inputs, op.isAdd = true ∧ plan.admits op = true :=
  desiredOps_admitted ⟨plan, inputs.tunIfindex, inputs.bypassMark, inputs.ipv6, true⟩

/-- A plan leaves the routing state. -/
theorem routing_planWith (h : E.Honours routing) {text : String}
    {persisted : Option PersistedTables} {x y : σ}
    {result : Except String (Option TablePlan)} (hres : planWith E text persisted x = (result, y)) :
    routing y = routing x := by
  have hsurvey := h.survey text x
  unfold planWith at hres
  rcases hs : E.survey text x with ⟨error | survey, z⟩ <;> rw [hs] at hres hsurvey <;>
    cases hres <;> exact hsurvey

theorem connect_spec (h : E.Honours routing) {text : String} {inputs : ConnectInputs}
    {extras : KillSwitchPolicy} {env : ConnectEnv} {host host' : Host σ} {state : SessionState}
    (hres : connect E text inputs extras env host = some (.ok state, host')) :
    (∀ op ∈ state.installedOps, op.isAdd = true ∧ state.plan.admits op = true) ∧
      objectsOf state.installedOps = objectsOf (sessionOps state.plan inputs)
        \ routing host.routing ∧
      routing host'.routing = routing host.routing ∪ objectsOf state.installedOps := by
  obtain ⟨error, x, -, hok, -⟩ | ⟨plan, x, hplan, hres⟩ := connect_cases hres
  · cases hok
  have hx := routing_planWith h hplan
  obtain ⟨error, hok, -, -⟩ | ⟨nft', -, -, ⟨error, -, hok, -⟩ | ⟨-, hres⟩⟩ := connectWith_cases hres
  · cases hok
  · cases hok
  obtain ⟨txn, hops, ⟨failure, y, -, hok, -⟩ | ⟨installed, y, dns, resolver, happly, -,
    rfl, hend⟩⟩ :=
    commitRoutes_cases hres
  · cases hok
  obtain ⟨error, -, hok⟩ | ⟨evidence, -, hok⟩ := hend <;> cases hok
  have hadmitted := sessionOps_admitted plan inputs
  have hadd : ∀ op ∈ sessionOps plan inputs, op.isAdd = true := fun op hop => (hadmitted op hop).1
  obtain ⟨hinstalled, hy⟩ := (RouteTransaction.applyLoop_atomic h txn.ops [] x rfl).1
    installed y happly
  rw [hops, hx] at hinstalled hy
  rw [List.nil_append] at hinstalled
  refine ⟨fun op hop => ?_, ?_, ?_⟩
  · rw [hinstalled] at hop
    exact hadmitted op ((changing_sublist NetOp.effect _ _).subset hop)
  · rw [hinstalled, objectsOf_changing hadd]
  · rw [hy, replay_adds hadd, hinstalled, objectsOf_changing hadd, Finset.union_sdiff_self_eq_union]

theorem cleanupOps_spec (h : E.Honours routing) {session cleanup : List NetOp} {x y : σ}
    (hadd : ∀ op ∈ session, op.isAdd = true) (hres : E.cleanupOps session x = (.ok cleanup, y)) :
    routing y = routing x ∧ cleanup = (session.filter fun op => op.object ∈ routing x).map
      inverse := by
  have hsame := h.presentOps (session.filter NetOp.isAdd) x
  have hpresent := h.present (session.filter NetOp.isAdd) x
  unfold NetlinkExecutor.cleanupOps at hres
  rcases hp : E.presentOps (session.filter NetOp.isAdd) x with ⟨error | present, z⟩ <;>
    rw [hp] at hres hsame hpresent <;> cases hres
  rw [List.filter_eq_self.mpr hadd] at hpresent
  exact ⟨hsame, by rw [hpresent present rfl]⟩

theorem sdiff_objectsOf_filter (ops : List NetOp) (routing : Finset NetObject) :
    routing \ objectsOf (ops.filter fun op => op.object ∈ routing) = routing \ objectsOf ops := by
  ext object
  simp only [Finset.mem_sdiff, mem_objectsOf, List.mem_filter, decide_eq_true_eq]
  refine and_congr_right fun hmem => not_congr ⟨fun ⟨op, hop, heq⟩ => ⟨op, hop.1, heq⟩, ?_⟩
  rintro ⟨op, hop, rfl⟩
  exact ⟨op, ⟨hop, hmem⟩, rfl⟩

theorem exists_apply_eq_ok (hexec : ∀ op x, ∃ flag, (E.exec op x).1 = .ok flag)
    (ops applied : List NetOp) (x : σ) :
    ∃ result y, RouteTransaction.applyLoop E ops applied x = (.ok result, y) := by
  induction ops generalizing applied x with
  | nil => exact ⟨applied, x, rfl⟩
  | cons op ops ih =>
    obtain ⟨flag, hflag⟩ := hexec op x
    unfold RouteTransaction.applyLoop
    rcases hop : E.exec op x with ⟨error | _ | _, y⟩
    · rw [hop] at hflag
      cases hflag
    · exact ih applied y
    · exact ih (applied ++ [op]) y

theorem disconnect_spec (h : E.Honours routing) {state : SessionState} (tunIfname : String)
    (permanent : Bool) (prior : Option GenerationId) (env : DisconnectEnv) {host host' : Host σ}
    {result : Except SessionError Unit}
    (hinstalled : ∀ op ∈ state.installedOps, op.isAdd = true ∧ state.plan.admits op = true)
    (hres : disconnect E state tunIfname permanent prior env host = (result, host')) :
    (result = .ok () → routing host'.routing =
     routing host.routing \ objectsOf state.installedOps) ∧
      ((∀ op x, ∃ flag, (E.exec op x).1 = .ok flag) →
       (∀ ops x, ∃ present, (E.presentOps ops x).1 = .ok present) →
        routing host'.routing = routing host.routing \ objectsOf state.installedOps ∧
          (result = .ok () ∨ ∃ error, result = .error (.killSwitch error))) := by
  have hadd : ∀ op ∈ state.installedOps, op.isAdd = true := fun op hop => (hinstalled op hop).1
  unfold disconnect at hres
  dsimp only at hres
  rcases hcleanup : E.cleanupOps state.installedOps host.routing with ⟨error | cleanup, x⟩ <;>
    rw [hcleanup] at hres <;> dsimp only at hres
  · -- the probe of what is present failed
    cases hres
    refine ⟨by simp, fun _ hpresent => ?_⟩
    obtain ⟨present, hok⟩ := hpresent (state.installedOps.filter NetOp.isAdd) host.routing
    unfold NetlinkExecutor.cleanupOps at hcleanup
    rcases hp : E.presentOps (state.installedOps.filter NetOp.isAdd) host.routing with
      ⟨e | p, y⟩ <;>
      rw [hp] at hok hcleanup <;> simp at hok hcleanup
  · obtain ⟨hx, rfl⟩ := cleanupOps_spec h hadd hcleanup
    obtain ⟨txn, hext, -, hops⟩ := (RouteTransaction.new state.plan).extend_eq_ok
      ((state.installedOps.filter fun op => op.object ∈ routing host.routing).map inverse) (by
        intro op hop
        obtain ⟨op', hop', rfl⟩ := List.mem_map.mp hop
        rw [TablePlan.admits_inverse]
        exact (hinstalled op' (List.mem_of_mem_filter hop')).2)
    rw [hext] at hres
    dsimp only at hres
    rcases happly : txn.apply E x with ⟨failure | applied, y⟩ <;> rw [happly] at hres <;>
      dsimp only at hres
    · cases hres
      refine ⟨by simp, fun hexec _ => ?_⟩
      obtain ⟨result, z, hok⟩ := exists_apply_eq_ok hexec txn.ops [] x
      rw [RouteTransaction.apply, hok] at happly
      cases happly
    · have hy := ((RouteTransaction.applyLoop_atomic h txn.ops [] x rfl).1 applied y happly).2
      rw [hops, hx] at hy
      have hgone : routing y = routing host.routing \ objectsOf state.installedOps := by
        rw [hy, RouteTransaction.new, List.nil_append,
          replay_dels fun op hop => hadd op (List.mem_of_mem_filter hop), sdiff_objectsOf_filter]
      split_ifs at hres
      · cases hres
        exact ⟨fun _ => hgone, fun _ _ => ⟨hgone, Or.inl rfl⟩⟩
      · rcases hremove : KillSwitch.remove env.remove prior host.nft with ⟨error | _, nft⟩ <;>
          rw [hremove] at hres <;> cases hres
        · exact ⟨by simp, fun _ _ => ⟨hgone, Or.inr ⟨error, rfl⟩⟩⟩
        · exact ⟨fun _ => hgone, fun _ _ => ⟨hgone, Or.inl rfl⟩⟩

/-- What a disconnect leaves, in terms of what was there before the connect and of what others
changed. -/
theorem sdiff_installed {before after desired installed removed added : Finset NetObject}
    (hinstalled : installed = desired \ before)
    (hafter : after = (before ∪ installed) \ removed ∪ added)
    (hforeign : Disjoint added desired) : after \ installed = before \ removed ∪ added := by
  subst hinstalled hafter
  ext object
  have hnot : object ∈ added → object ∉ desired := fun hmem => Finset.disjoint_left.mp hforeign hmem
  simp only [Finset.mem_sdiff, Finset.mem_union]
  tauto

/-- **Connect, then disconnect, leaves no trace and takes nothing foreign.** Whatever other managers
remove in between, the session's own objects and those that were there before included, and whatever
they add that is not the session's: a disconnect that succeeds leaves what was there before the
connect, with exactly their changes, and nothing of what the connect installed; and where no netlink
call fails, it leaves that whether or not the kill switch goes, and no route of it fails. -/
theorem disconnect_leaves_no_trace {σ : Type*} (E : NetlinkExecutor σ)
    (routing : σ → Finset NetObject)
    (h : E.Honours routing) (text : String) (inputs : ConnectInputs) (extras : KillSwitchPolicy)
    (env : ConnectEnv) (host host₁ : Host σ) (state : SessionState)
    (hconnect : connect E text inputs extras env host = some (.ok state, host₁))
    (removed added : Finset NetObject)
    (hforeign : Disjoint added (objectsOf (sessionOps state.plan inputs)))
    (host₂ : Host σ) (hchanged : routing host₂.routing = routing host₁.routing \ removed ∪ added)
    (tunIfname : String) (permanent : Bool) (prior : Option GenerationId) (denv : DisconnectEnv)
    (host₃ : Host σ) (result : Except SessionError Unit)
    (hdisconnect : disconnect E state tunIfname permanent prior denv host₂ = (result, host₃)) :
    (result = .ok () → routing host₃.routing = routing host.routing \ removed ∪ added ∧
        Disjoint (routing host₃.routing) (objectsOf state.installedOps)) ∧
      ((∀ op x, ∃ flag, (E.exec op x).1 = .ok flag) →
       (∀ ops x, ∃ present, (E.presentOps ops x).1 = .ok present) →
        routing host₃.routing = routing host.routing \ removed ∪ added ∧
          (result = .ok () ∨ ∃ error, result = .error (.killSwitch error))) := by
  obtain ⟨hadmitted, hinstalled, hrouting⟩ := connect_spec h hconnect
  obtain ⟨hok, htotal⟩ := disconnect_spec h tunIfname permanent prior denv hadmitted hdisconnect
  rw [hrouting] at hchanged
  have hleft := sdiff_installed hinstalled hchanged hforeign
  refine ⟨fun hres => ?_, fun hexec hpresent => ?_⟩
  · rw [hok hres]
    exact ⟨hleft, Finset.sdiff_disjoint⟩
  · obtain ⟨hgone, hend⟩ := htotal hexec hpresent
    exact ⟨hgone.trans hleft, hend⟩

end

/-! ## A host where no call fails -/

/-- An executor over the objects themselves. -/
def steady : NetlinkExecutor (Finset NetObject) where
  exec op routing := (.ok (decide (op.effect routing ≠ routing)), op.effect routing)
  survey _ routing := (.ok {}, routing)
  presentOps desired routing := (.ok (desired.filter fun op => op.object ∈ routing), routing)

theorem steady_honours : steady.Honours id where
  exec := {
    ok := fun op x flag _ => rfl
    flag := fun op x flag hok => by
      cases hok
      exact decide_eq_true_iff
    error := fun _ _ _ herror => (nomatch herror) }
  survey _ _ := rfl
  presentOps _ _ := rfl
  present _ _ _ hpresent := by
    cases hpresent
    rfl

/-- A host with a tunnel and an uplink, where every exchange goes through. -/
def quietNetfilter : NetfilterEnv :=
  ⟨fun name => .ok (if name = "lo" then 1 else if name = "pw-tun0" then 5 else 2), fun _ => none,
    fun sent => if sent then 1 else 0⟩

def firstConnect : ConnectInputs where
  tunIfindex := 5
  tunIfname := "pw-tun0"
  uplinkIfname := "eth0"
  bypassMark := 0x21
  ipv6 := .blocked
  dns := ⟨.none, []⟩
  generation := ⟨1⟩
  priorGeneration := none
  persistedTables := none

def quietConnect : ConnectEnv := ⟨quietNetfilter, quietNetfilter, ⟨fun _ => none, 1⟩⟩

def bareHost : Host (Finset NetObject) := ⟨∅, [], ⟨false, none⟩⟩

def quietDisconnect : DisconnectEnv := ⟨⟨fun _ => none, 1⟩, quietNetfilter⟩

/-- A route of another manager. -/
def foreignRoute : NetObject := .route ⟨254, .v4Default, 2⟩

/-- The IPv4 bypass rule of the session. -/
def bypassRuleV4 : NetObject := (bypassOp 0x21 .v4).object

/-- What the first connect reports. -/
def firstSession : SessionState where
  plan := preferredPlan
  installedOps := sessionOps preferredPlan firstConnect
  dnsEvidence := none
  dnsBackend := .resolvConf
  generation := ⟨1⟩

/-- The host it leaves. -/
def connectedHost : Host (Finset NetObject) where
  routing := Rollback.replay NetOp.effect (sessionOps preferredPlan firstConnect) ∅
  nft := [ownTable ⟨1⟩ (renderRules 1 ⟨5, true, [], 0x21⟩)]
  resolver := ⟨false, none⟩

/-- That host, without the IPv4 bypass rule and with a route of another manager. -/
def driftedHost : Host (Finset NetObject) :=
  { connectedHost with routing := connectedHost.routing \ {bypassRuleV4} ∪ {foreignRoute} }

theorem disconnect_leaves_no_trace_firstConnect :
    connect steady "" firstConnect ⟨0, true, [], 0x21⟩ quietConnect bareHost =
    some (.ok firstSession, connectedHost) ∧
      (disconnect steady firstSession "pw-tun0" false (some ⟨1⟩)
       quietDisconnect driftedHost).2.routing =
        ∅ \ {bypassRuleV4} ∪ {foreignRoute} :=
  ⟨rfl,
    ((disconnect_leaves_no_trace steady id steady_honours "" firstConnect ⟨0, true, [],
      0x21⟩ quietConnect bareHost
      connectedHost firstSession rfl {bypassRuleV4} {foreignRoute}
        (by decide) driftedHost rfl "pw-tun0" false
      (some ⟨1⟩) quietDisconnect _ _ rfl).1 rfl).1⟩

end ProtonWire
