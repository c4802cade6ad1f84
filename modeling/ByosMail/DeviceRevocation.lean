import ByosMail.DeviceGrants

-- services/api/devices.go, deviceRevokeHandler, under the foreign keys of the schema.
namespace ByosMail.DeviceRevocation
open GoText Machine
open MailboxKeys (Reply)
open RootRotation

-- What the deletion of a row does to the rows that refer to it.
inductive OnDelete where
  | noAction | cascade
  deriving DecidableEq

-- device_mailbox_access.device_id in 001_init.sql; no later migration replaces it, the one to
-- cascading keys included.
def deviceIdKey : OnDelete := .noAction

-- UPDATE device_mailbox_access SET is_active=false ... WHERE device_id=$1.
def revokeGrants (deviceID : Nat) (d : Data) : Data :=
  {d with access:=Table.update (fun a : Access => a.deviceId = deviceID) (fun a => {a with isActive:=false}) d.access}

-- DELETE FROM devices WHERE id=$1; none when the key is violated.
def deleteDevice (key : OnDelete) (deviceID : Nat) (d : Data) : Option Data :=
  let gone := {d with devices:=d.devices.filter (·.id ≠ deviceID)}
  match key with
  | .cascade => some {gone with access:=d.access.filter (·.deviceId ≠ deviceID)}
  | .noAction => if d.access.any (·.deviceId = deviceID) then none else some gone

section
variable (parses : String → Bool) (d : Data) (userID : Nat) (deviceID : String)

-- Both statements are of one transaction, which a failure leaves to the deferred rollback.
def deviceRevokeHandler : Reply × Data :=
  if ¬parses (trimSpace deviceID) then (⟨400,"device_id must be UUID"⟩,d)
  else
    match (Uuid.read (trimSpace deviceID)).bind fun key => d.devices.find? (·.id = key) with
    | none => (⟨404,"device not found"⟩,d)
    | some device =>
      if device.userId ≠ userID then (⟨403,"not authorized for this device"⟩,d)
      else
        match deleteDevice deviceIdKey device.id (revokeGrants device.id d) with
        | none => (⟨500,"failed to revoke device"⟩,d)
        | some after => (⟨204,""⟩,after)

def Names (device : Device) : Prop :=
  parses (trimSpace deviceID) = true ∧
    (Uuid.read (trimSpace deviceID)).bind (fun key => d.devices.find? (·.id = key)) = some device

instance : Decidable (Names parses d deviceID device) := inferInstanceAs (Decidable (_ ∧ _))

structure Revoked (key : Nat) (result : Reply × Data) : Prop where
  done : result.1.status = 204
  inactive : ∀ a ∈ result.2.access, a.deviceId = key → a.isActive = false
  gone : ∀ device ∈ result.2.devices, device.id ≠ key

def Revokes : Prop :=
  ∀ device, Names parses d deviceID device →
    if device.userId = userID then Revoked device.id (deviceRevokeHandler parses d userID deviceID)
    else (deviceRevokeHandler parses d userID deviceID).2 = d

def Ungranted : Prop :=
  ∀ device, Names parses d deviceID device → device.userId = userID → ∀ a ∈ d.access, a.deviceId ≠ device.id

end

section
variable {parses : String → Bool} {d : Data} {userID : Nat} {deviceID : String} {device : Device}

theorem handler_named (names : Names parses d deviceID device) :
    deviceRevokeHandler parses d userID deviceID =
      if device.userId ≠ userID then (⟨403,"not authorized for this device"⟩,d)
      else
        match deleteDevice deviceIdKey device.id (revokeGrants device.id d) with
        | none => (⟨500,"failed to revoke device"⟩,d)
        | some after => (⟨204,""⟩,after) := by
  obtain ⟨parsed,found⟩ := names
  rw [deviceRevokeHandler,parsed,if_neg (by simp),found]

theorem handler_foreign (names : Names parses d deviceID device) (other : device.userId ≠ userID) :
    (deviceRevokeHandler parses d userID deviceID).2 = d := by
  rw [handler_named names,if_pos other]

theorem revokeGrants_refers : (revokeGrants key d).access.any (·.deviceId = key) = d.access.any (·.deviceId = key) := by
  have kept : (revokeGrants key d).access.map (·.deviceId) = d.access.map (·.deviceId) := Table.column_update fun _ => rfl
  have counted : ∀ rows : List Access, rows.any (·.deviceId = key) = (rows.map (·.deviceId)).any (· = key) := by
    intro rows
    rw [List.any_map]
    rfl
  rw [counted,counted,kept]

theorem revokeGrants_inactive (member : a ∈ (revokeGrants key d).access) (same : a.deviceId = key) : a.isActive = false := by
  obtain ⟨old,_,rfl⟩ := Table.mem_update.mp member
  by_cases hit : old.deviceId = key
  · rw [if_pos hit]
  · rw [if_neg hit] at same
    exact absurd same hit

theorem handler_revoked (names : Names parses d deviceID device) (own : device.userId = userID)
    (ungranted : ∀ a ∈ d.access, a.deviceId ≠ device.id) :
    Revoked device.id (deviceRevokeHandler parses d userID deviceID) := by
  have unreferred : (revokeGrants device.id d).access.any (·.deviceId = device.id) = false := by
    rw [revokeGrants_refers,List.any_eq_false]
    intro a member
    simpa using ungranted a member
  have answer : deviceRevokeHandler parses d userID deviceID =
      (⟨204,""⟩,{revokeGrants device.id d with devices:=d.devices.filter (·.id ≠ device.id)}) := by
    rw [handler_named names,if_neg (not_not.mpr own)]
    simp [deleteDevice,deviceIdKey,unreferred]
    rfl
  rw [answer]
  refine ⟨rfl,?_,?_⟩
  · intro a member same
    exact revokeGrants_inactive member same
  · intro left member
    simpa using (List.mem_filter.mp member).2

theorem handler_refused (names : Names parses d deviceID device) (own : device.userId = userID) (granted : a ∈ d.access)
    (same : a.deviceId = device.id) :
    deviceRevokeHandler parses d userID deviceID = (⟨500,"failed to revoke device"⟩,d) := by
  have referred : (revokeGrants device.id d).access.any (·.deviceId = device.id) = true := by
    rw [revokeGrants_refers,List.any_eq_true]
    exact ⟨a,granted,decide_eq_true same⟩
  rw [handler_named names,if_neg (not_not.mpr own)]
  simp [deleteDevice,deviceIdKey,referred]

theorem revocation_exactly : Revokes parses d userID deviceID ↔ Ungranted parses d userID deviceID := by
  constructor
  · intro revokes device names own a granted same
    have revoked := revokes device names
    rw [if_pos own,handler_refused names own granted same] at revoked
    cases revoked.done
  · intro ungranted device names
    split
    · rename_i own
      exact handler_revoked names own (ungranted device names own)
    · rename_i other
      exact handler_foreign names other

end

-- A member enrols a device with a grant to its own mailbox and then revokes it.
theorem granted_device_kept : ¬∀ trace t, Runs (advance fun _ => true) (idle sample) trace t →
    ∀ userID deviceID, Revokes (fun _ => true) t.data userID deviceID := by
  have reached : ∃ trace t, Runs (advance fun _ => true) (idle sample) trace t ∧
      (Names (fun _ => true) t.data "00000000-0000-0000-0000-000000000014" ⟨20,10,"phone",List.replicate 32 0⟩ ∧
        (deviceRevokeHandler (fun _ => true) t.data 10 "00000000-0000-0000-0000-000000000014").1.status = 500) :=
    follow_ends ([enrolls] ++ steps 0 7 20) (by decide +kernel)
  intro promised
  obtain ⟨trace,t,run,names,refused⟩ := reached
  have revoked := promised trace t run 10 "00000000-0000-0000-0000-000000000014" _ names
  rw [if_pos rfl] at revoked
  cases refused.symm.trans revoked.done

end ByosMail.DeviceRevocation
