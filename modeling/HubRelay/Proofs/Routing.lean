import HubRelay.Proofs.Identity
import Mathlib.Data.Nat.Bitwise

/-!
Messages from the hub reach the client whose endpoint they name.

A tagged endpoint id is a number with three digits: the mark, the client and the endpoint
(`EndpointId.toNat_tag`). As client numbers stay below the highest one, it can be read back and is
never the id for everybody; as clients keep their numbers, it can be read back at any later time.
-/

namespace HubRelay

/-! ### Tagged endpoint ids -/

namespace EndpointId

variable {id : EndpointId} {client : ClientId}

theorem toNat_tag (fits : client.toNat < 512) (small : id.toNat < 64) :
    (tag id client).toNat = 0x8000 + 64 * client.toNat + id.toNat := by
  have whole : client.toNat &&& 0x1ff = client.toNat :=
    (Nat.and_two_pow_sub_one_eq_mod _ 9).trans (Nat.mod_eq_of_lt fits)
  have low : id.toNat &&& 0x3f = id.toNat :=
    (Nat.and_two_pow_sub_one_eq_mod _ 6).trans (Nat.mod_eq_of_lt small)
  have shifted : client.toNat <<< 6 % 2 ^ 16 = 64 * client.toNat := by
    rw [Nat.shiftLeft_eq]
    omega
  have marked : 0x8000 ||| 64 * client.toNat = 0x8000 + 64 * client.toNat := by
    have below : 64 * client.toNat < 2 ^ 15 := by omega
    exact (Nat.two_pow_add_eq_or_of_lt below 1).symm
  have joined : (0x8000 + 64 * client.toNat) ||| id.toNat =
      0x8000 + 64 * client.toNat + id.toNat := by
    have parts := Nat.two_pow_add_eq_or_of_lt (i := 6) small (512 + client.toNat)
    rw [Nat.mul_add] at parts
    exact parts.symm
  have words : (tag id client).toNat =
      0x8000 ||| (client.toNat &&& 0x1ff) <<< 6 % 2 ^ 16 ||| (id.toNat &&& 0x3f) := by
    simp only [tag, UInt16.toNat_or, UInt16.toNat_and, UInt16.toNat_shiftLeft]
    rfl
  rw [words, whole, low, shifted, marked, joined]

/-- The tagged ids are the upper half, but for the id for everybody. -/
theorem isTagged_iff : id.isTagged = true ↔ 0x8000 ≤ id.toNat ∧ id.toNat ≠ 0xffff := by
  have mark : (id &&& tagBit).toNat = id.toNat / 2 ^ 15 % 2 * 2 ^ 15 := by
    rw [UInt16.toNat_and]
    show id.toNat &&& 2 ^ 15 = _
    rw [Nat.and_two_pow, Nat.toNat_testBit]
  have all : broadcast.toNat = 0xffff := rfl
  have none : (0 : UInt16).toNat = 0 := rfl
  have bound := id.toNat_lt
  simp only [isTagged, Bool.and_eq_true, bne_iff_ne, ne_eq, ← UInt16.toNat_inj, mark, all, none]
  omega

theorem isTagged_tag (fits : client.toNat < 0x1ff) (small : id.toNat < 64) :
    (tag id client).isTagged = true := by
  rw [isTagged_iff, toNat_tag (by omega) small]
  omega

theorem owner?_tag (fits : client.toNat < 0x1ff) (small : id.toNat < 64) :
    (tag id client).owner? = some client := by
  rw [owner?, if_pos (isTagged_tag fits small)]
  refine congrArg some (UInt16.toNat_inj.mp ?_)
  have words : ((tag id client &&& 0x7fff) >>> clientShift).toNat =
      ((tag id client).toNat &&& 0x7fff) >>> 6 := by
    rw [UInt16.toNat_shiftRight, UInt16.toNat_and]
    rfl
  have low := Nat.and_two_pow_sub_one_eq_mod (tag id client).toNat 15
  rw [words, Nat.shiftRight_eq_div_pow, low, toNat_tag (by omega) small]
  omega

theorem bare_tag (fits : client.toNat < 0x1ff) (small : id.toNat < 64) :
    (tag id client).bare = id := by
  rw [bare, if_pos (isTagged_tag fits small), ← UInt16.toNat_inj, UInt16.toNat_and]
  have low := Nat.and_two_pow_sub_one_eq_mod (tag id client).toNat 6
  rw [toNat_tag (by omega) small] at low
  refine (congrArg (· &&& 0x3f) (toNat_tag (by omega) small)).trans (low.trans ?_)
  omega

end EndpointId

/-! ### The client that an endpoint id names -/

namespace Switchboard

variable {s t : Switchboard} {c : Client} {pid : Pid} {endpoint m : EndpointId}

/-- Where a key tells clients apart, looking for that of a client finds the client. -/
theorem find?_of_nodup {κ : Type} [BEq κ] [LawfulBEq κ] {key : Client → κ}
    {clients : List Client} (distinct : (clients.map key).Nodup) (mem : c ∈ clients) :
    clients.find? (key · == key c) = some c := by
  cases found : clients.find? (key · == key c) with
  | none => exact absurd (beq_self_eq_true (key c)) (List.find?_eq_none.mp found c mem)
  | some other =>
      have same : key other = key c := by simpa using List.find?_some found
      rw [List.inj_on_of_nodup_map distinct (List.mem_of_find?_eq_some found) mem same]

/-- The id under which the hub knows an endpoint of the client. -/
def hubId (s : Switchboard) (client : Client) (endpoint : EndpointId) : EndpointId :=
  if client.uuid = s.settings.systemUuid then endpoint else endpoint.tag client.id

def named? (s : Switchboard) (m : EndpointId) : Option Client :=
  match m.owner? with
  | some id => s.byId? id
  | none => s.byUuid? s.settings.systemUuid

theorem callbackFor?_eq (s : Switchboard) (m : EndpointId) :
    s.callbackFor? m = (s.named? m).bind Client.callback? := by
  unfold callbackFor? named?
  cases m.owner? <;> rfl

theorem pid?_of_byPid? (found : s.byPid? pid = some c) : c.pid? = some pid := by
  unfold byPid? at found
  exact Client.runsAs_iff.mp (by simpa using List.find?_some found)

theorem hubEndpoint_eq_ok (known : s.hubEndpoint pid endpoint = .ok m) :
    ∃ client, s.byPid? pid = some client ∧ endpoint < s.endpointLimit client ∧
      m = s.hubId client endpoint := by
  unfold hubEndpoint at known
  cases found : s.clientFor pid endpoint with
  | error error =>
      rw [found] at known
      cases known
  | ok client =>
      rw [found] at known
      obtain ⟨byPid, inRange⟩ := allows_of_clientFor found
      exact ⟨client, byPid, inRange, (Except.ok.inj known).symm⟩

/-- The hub's id of an endpoint names its client and the endpoint. The system's own client has its
endpoints under ids that are not tagged, and no other client can have one of these. -/
theorem Sound.named (sound : s.Sound) (mem : c ∈ s.clients)
    (inRange : endpoint < s.endpointLimit c) :
    s.hubId c endpoint ≠ EndpointId.broadcast ∧ (s.hubId c endpoint).bare = endpoint ∧
      s.named? (s.hubId c endpoint) = some c := by
  rw [UInt16.lt_iff_toNat_lt, endpointLimit] at inRange
  unfold hubId named?
  by_cases own : c.uuid = s.settings.systemUuid
  · rw [if_pos own] at inRange ⊢
    have small : endpoint.toNat < 0x8000 := inRange
    have bare : endpoint.isTagged = false := by
      rw [← Bool.not_eq_true, EndpointId.isTagged_iff]
      omega
    refine ⟨?_, ?_, ?_⟩
    · rintro rfl
      exact absurd small (by decide)
    · rw [EndpointId.bare, bare]
      rfl
    · rw [EndpointId.owner?, bare, ← own]
      exact find?_of_nodup sound.nodup_uuids mem
  · rw [if_neg own] at inRange ⊢
    have small : endpoint.toNat < 64 := inRange
    have fits : c.id.toNat < 0x1ff := by
      have := (ClientId.isAssignable_iff.mp (sound.isAssignable mem)).2
      omega
    refine ⟨fun all => ?_, EndpointId.bare_tag fits small, ?_⟩
    · have tagged := EndpointId.isTagged_tag fits small
      rw [all] at tagged
      exact absurd tagged (by decide)
    · rw [EndpointId.owner?_tag fits small]
      exact find?_of_nodup sound.nodup_ids mem

/-- Every client is there at any later time, under its number. -/
theorem Sound.exists_later (sound : s.Sound) (mem : c ∈ s.clients)
    (operations : List HostOperation) :
    ∃ d ∈ (s.run operations).clients, d.uuid = c.uuid ∧ d.id = c.id := by
  have known := Roster.find?_eq_some_iff.mpr (sound.listed.mem_iff.mp (List.mem_map_of_mem mem))
  have later := Roster.find?_eq_some_iff.mp (find?_run known operations)
  obtain ⟨d, stands, pair⟩ := List.mem_map.mp ((sound.run operations).listed.mem_iff.mpr later)
  exact ⟨d, stands, congrArg Prod.fst pair, congrArg Prod.snd pair⟩

/-! ### Delivery -/

theorem route_eq {message : HubMessage} (single : message.endpoint ≠ EndpointId.broadcast)
    (named : s.named? message.endpoint = some c) (permissions : List String) :
    s.route message permissions =
      match c.callback? with
      | none => (false, [])
      | some callback =>
          (true, [(callback,
            .message { message with endpoint := message.endpoint.bare } permissions)]) := by
  rw [route, if_neg single, callbackFor?_eq, named]
  rfl

def connected (s : Switchboard) : List Client := s.clients.filter (·.pid?.isSome)

theorem Sound.forall₂_broadcast (sound : s.Sound) (message : HubMessage)
    (permissions : List String) :
    List.Forall₂
      (fun c notice => c.callback? = some notice.1 ∧ notice.2 = .message message permissions)
      s.connected (s.broadcast message permissions) := by
  have coherent := sound.coherent
  unfold connected broadcast callbacks
  generalize s.clients = clients at coherent
  induction clients with
  | nil => exact .nil
  | cons c rest ih =>
      have later := ih fun d mem => coherent d (List.mem_cons_of_mem c mem)
      -- A client runs exactly if it has a callback to be told by.
      have both := (coherent c List.mem_cons_self).callback
      cases called : c.callback? with
      | none =>
          rw [called] at both
          have idle : c.pid?.isSome = false := by simpa using both
          simpa [List.filter_cons, List.filterMap_cons, called, idle] using later
      | some callback =>
          rw [called] at both
          have runs : c.pid?.isSome = true := both.mpr rfl
          simpa [List.filter_cons, List.filterMap_cons, called, runs] using later

end Switchboard

/-- In every run the hub's ids of endpoints tell all processes and their endpoints apart, and none
is the id for everybody. A message to the hub's id of an endpoint goes, at any later time, to the
client whose endpoint it was: to its callback of that time and to no other, with the client's own id
of the endpoint and otherwise unchanged; to nobody while the client is not connected. A message to
everybody goes to every connected client once, unchanged.

Later times are reached by any further operations, among them deaths of the process and
registrations under another one. -/
theorem messages_reach_clients (settings : HostSettings) (contents : Option ByteArray)
    (past : List HostOperation) :
    let s := (Switchboard.ofContents settings contents).run past
    (∀ p e q f m, s.hubEndpoint p e = .ok m → s.hubEndpoint q f = .ok m → p = q ∧ e = f) ∧
      (∀ p e m, s.hubEndpoint p e = .ok m → m ≠ EndpointId.broadcast ∧
        ∃ client, s.byPid? p = some client ∧
          ∀ later message permissions, message.endpoint = m →
            ∃ now, (s.run later).byUuid? client.uuid = some now ∧
              (∀ callback, now.callback? = some callback →
                (s.run later).route message permissions =
                  (true, [(callback, .message { message with endpoint := e } permissions)])) ∧
              (now.callback? = none → (s.run later).route message permissions = (false, []))) ∧
      ∀ message permissions, message.endpoint = EndpointId.broadcast →
        (s.route message permissions).1 = true ∧
          ∃ told, (told.map Client.uuid).Nodup ∧
            (∀ c, c ∈ told ↔ c ∈ s.clients ∧ c.pid?.isSome) ∧
            List.Forall₂ (fun c notice =>
                c.callback? = some notice.1 ∧ notice.2 = .message message permissions)
              told (s.route message permissions).2 := by
  intro s
  have sound : s.Sound := (Switchboard.sound_ofContents settings contents).run past
  refine ⟨?_, ?_, ?_⟩
  · intro p e q f m first second
    obtain ⟨c, byPid, inRange, rfl⟩ := Switchboard.hubEndpoint_eq_ok first
    obtain ⟨d, byPid', inRange', same⟩ := Switchboard.hubEndpoint_eq_ok second
    obtain ⟨-, bare, named⟩ := sound.named (List.mem_of_find?_eq_some byPid) inRange
    obtain ⟨-, bare', named'⟩ := sound.named (List.mem_of_find?_eq_some byPid') inRange'
    rw [← same] at bare' named'
    obtain rfl : c = d := Option.some.inj (named.symm.trans named')
    have same := (Switchboard.pid?_of_byPid? byPid).symm.trans (Switchboard.pid?_of_byPid? byPid')
    exact ⟨Option.some.inj same, bare.symm.trans bare'⟩
  · intro p e m known
    obtain ⟨c, byPid, inRange, rfl⟩ := Switchboard.hubEndpoint_eq_ok known
    have mem := List.mem_of_find?_eq_some byPid
    refine ⟨(sound.named mem inRange).1, c, byPid, fun later message permissions addressed => ?_⟩
    have settings' := s.settings_run later
    -- Later on the client is there under its old number, so its endpoint has the same id at the
    -- hub.
    obtain ⟨now, stands, uuid, id⟩ := sound.exists_later mem later
    have limit : (s.run later).endpointLimit now = s.endpointLimit c := by
      rw [Switchboard.endpointLimit, Switchboard.endpointLimit, uuid, settings']
    have hubId : (s.run later).hubId now e = s.hubId c e := by
      rw [Switchboard.hubId, Switchboard.hubId, uuid, id, settings']
    obtain ⟨single, bare, named⟩ := (sound.run later).named stands (limit ▸ inRange)
    rw [hubId, ← addressed] at single bare named
    have routed := Switchboard.route_eq single named permissions
    rw [bare] at routed
    refine ⟨now, ?_, fun callback connected => ?_, fun gone => ?_⟩
    · rw [← uuid]
      exact Switchboard.find?_of_nodup (sound.run later).nodup_uuids stands
    · rw [routed, connected]
    · rw [routed, gone]
  · intro message permissions all
    have routed : s.route message permissions = (true, s.broadcast message permissions) := by
      rw [Switchboard.route, if_pos all]
    rw [routed]
    refine ⟨rfl, s.connected, ?_, fun c => List.mem_filter,
      sound.forall₂_broadcast message permissions⟩
    exact sound.nodup_uuids.sublist (List.filter_sublist.map _)

/-- A client dies and comes back as another process before a message to its endpoint arrives. -/
theorem messages_reach_clients_returning :
    let s := (Switchboard.ofContents {} none).run [.register 7 ⟨0⟩ (.ofNat 1) ⟨true, true⟩]
    let later : List HostOperation := [.death 7, .register 9 ⟨4⟩ (.ofNat 1) ⟨true, true⟩]
    let message : HubMessage :=
      { appId := 5, endpoint := 0x80bf, type := 0, body := [1, 2], permissions := [] }
    s.hubEndpoint 7 63 = .ok 0x80bf ∧
      (s.run later).route message [] =
        (true, [(⟨4⟩, .message { message with endpoint := 63 } [])]) := by
  intro s later message
  have known : s.hubEndpoint 7 63 = .ok 0x80bf := by decide +kernel
  obtain ⟨-, client, byPid, reaches⟩ :=
    (messages_reach_clients {} none [.register 7 ⟨0⟩ (.ofNat 1) ⟨true, true⟩]).2.1 7 63 0x80bf known
  obtain ⟨now, found, told, -⟩ := reaches later message [] rfl
  have uuid : client.uuid = .ofNat 1 := by
    have same : (s.byPid? 7).map Client.uuid = some (.ofNat 1) := by decide +kernel
    rw [show s.byPid? 7 = some client from byPid] at same
    exact Option.some.inj same
  have callback : now.callback? = some ⟨4⟩ := by
    have same : ((s.run later).byUuid? (.ofNat 1)).map Client.callback? = some (some ⟨4⟩) := by
      decide +kernel
    rw [show (s.run later).byUuid? (.ofNat 1) = some now from uuid ▸ found] at same
    exact Option.some.inj same
  exact ⟨known, told ⟨4⟩ callback⟩

end HubRelay
