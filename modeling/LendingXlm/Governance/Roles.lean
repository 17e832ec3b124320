import LendingXlm.Governance.Calls
import LendingXlm.Governance.Reference

/-!
# Owner, admin and roles

- **Writes** (`Lawful.hasRole_grant`, `Lawful.hasRole_revoke`): what one grant and one revocation
  leave of who holds what.
- **The invariant** (`Governed`): one account is owner and admin and holds every operational role,
  and nobody else holds both EXECUTOR and CANCELLER. Every function of `access.rs` keeps it, a
  hand-over for the new owner.
- **Runs** (`AccessMove`, `governance_roles`): a call moves the access state by one of these
  functions or not at all.
-/

namespace Lending.Gov

open Fallible (bind_ok require_ok_iff orThrow_ok_iff)

variable {Id T A W : Type}

/-! ## One grant, one revocation -/

namespace AccessLib.Lawful

variable {lib : AccessLib A} (hlib : lib.Lawful) {a a' : A} {x y : Address} {role role' : String}

include hlib

theorem hasRole_grant (h : lib.grantRoleNoAuth a x role = .ok a') :
    lib.hasRole a' y role' = true ↔ y = x ∧ role' = role ∨ lib.hasRole a y role' = true := by
  have hview := hlib.grant h
  by_cases hx : lib.hasRole a x role = true
  · rw [if_pos hx] at hview
    unfold hasRole
    rw [hview]
    constructor
    · exact .inr
    · rintro (⟨rfl, rfl⟩ | hy)
      · exact hx
      · exact hy
  · rw [if_neg hx] at hview
    unfold hasRole
    rw [hview]
    by_cases hr : role' = role
    · subst hr
      simp [SwapIndex.contains_insert]
    · simp [hr]

theorem owner_grant (h : lib.grantRoleNoAuth a x role = .ok a') :
    lib.getOwner a' = lib.getOwner a := by
  unfold getOwner
  rw [hlib.grant h]
  split <;> rfl

theorem admin_grant (h : lib.grantRoleNoAuth a x role = .ok a') :
    lib.getAdmin a' = lib.getAdmin a := by
  unfold getAdmin
  rw [hlib.grant h]
  split <;> rfl

theorem wellFormed_grant (hwf : ∀ role, ((lib.view a).roleMembers role).WellFormed)
    (h : lib.grantRoleNoAuth a x role = .ok a') :
    ∀ role, ((lib.view a').roleMembers role).WellFormed := by
  intro role'
  rw [hlib.grant h]
  by_cases hx : lib.hasRole a x role = true
  · rw [if_pos hx]
    exact hwf role'
  · rw [if_neg hx]
    by_cases hr : role' = role
    · subst hr
      simpa using SwapIndex.insert_wellFormed (hwf role') (Bool.eq_false_of_not_eq_true hx)
    · simpa [Function.update_of_ne hr] using hwf role'

theorem hasRole_revoke (hwf : ∀ role, ((lib.view a).roleMembers role).WellFormed)
    (h : lib.revokeRoleNoAuth a x role = .ok a') :
    lib.hasRole a' y role' = true ↔ ¬ (y = x ∧ role' = role) ∧ lib.hasRole a y role' = true := by
  obtain ⟨-, members, hremove, hview⟩ := hlib.revoke h
  unfold hasRole
  rw [hview]
  by_cases hr : role' = role
  · subst hr
    simp [SwapIndex.contains_remove (hwf role') hremove]
  · simp [hr]

theorem owner_revoke (h : lib.revokeRoleNoAuth a x role = .ok a') :
    lib.getOwner a' = lib.getOwner a := by
  obtain ⟨-, members, -, hview⟩ := hlib.revoke h
  unfold getOwner
  rw [hview]

theorem admin_revoke (h : lib.revokeRoleNoAuth a x role = .ok a') :
    lib.getAdmin a' = lib.getAdmin a := by
  obtain ⟨-, members, -, hview⟩ := hlib.revoke h
  unfold getAdmin
  rw [hview]

theorem wellFormed_revoke (hwf : ∀ role, ((lib.view a).roleMembers role).WellFormed)
    (h : lib.revokeRoleNoAuth a x role = .ok a') :
    ∀ role, ((lib.view a').roleMembers role).WellFormed := by
  obtain ⟨-, members, hremove, hview⟩ := hlib.revoke h
  intro role'
  rw [hview]
  by_cases hr : role' = role
  · subst hr
    simpa using SwapIndex.remove_wellFormed (hwf role') hremove
  · simpa [Function.update_of_ne hr] using hwf role'

end AccessLib.Lawful

/-! ## The invariant -/

/-- `owner` is owner and admin and holds every operational role; nobody else holds both EXECUTOR
and CANCELLER. -/
structure Governed (lib : AccessLib A) (owner : Address) (a : A) : Prop where
  owner_eq : lib.getOwner a = some owner
  admin_eq : lib.getAdmin a = some owner
  wellFormed : ∀ role, ((lib.view a).roleMembers role).WellFormed
  holds : ∀ role ∈ defaultOperationalRoles, lib.hasRole a owner role = true
  separated : ∀ x, x ≠ owner →
    ¬ (lib.hasRole a x executorRole = true ∧ lib.hasRole a x cancellerRole = true)

theorem executorRole_ne_cancellerRole : executorRole ≠ cancellerRole := by decide

theorem cancellerRole_mem : cancellerRole ∈ defaultOperationalRoles := by decide

namespace Governed

variable {lib : AccessLib A} {a a' : A} {owner x : Address} {role : String}

/-- Only what is read of the access state matters. -/
theorem congr (ha : Governed lib owner a) (hview : lib.view a' = lib.view a) :
    Governed lib owner a' := by
  obtain ⟨howner, hadmin, hwf, hholds, hsep⟩ := ha
  unfold AccessLib.getOwner AccessLib.getAdmin AccessLib.hasRole at *
  constructor <;>
    simpa only [AccessLib.getOwner, AccessLib.getAdmin, AccessLib.hasRole, hview]

theorem ownerOrPanic_eq (ha : Governed lib owner a) {o : Address}
    (h : Access.ownerOrPanic lib a = .ok o) : o = owner := by
  have ho := orThrow_ok_iff.mp h
  rw [ha.owner_eq] at ho
  exact (Option.some.inj ho).symm

theorem grant (hlib : lib.Lawful) (ha : Governed lib owner a)
    (h : lib.grantRoleNoAuth a x role = .ok a')
    (hsep : x ≠ owner → (role = executorRole → lib.hasRole a x cancellerRole = false) ∧
      (role = cancellerRole → lib.hasRole a x executorRole = false)) :
    Governed lib owner a' where
  owner_eq := (hlib.owner_grant h).trans ha.owner_eq
  admin_eq := (hlib.admin_grant h).trans ha.admin_eq
  wellFormed := hlib.wellFormed_grant ha.wellFormed h
  holds r hr := (hlib.hasRole_grant h).mpr (.inr (ha.holds r hr))
  separated y hy := by
    rintro ⟨hexec, hcanc⟩
    rw [hlib.hasRole_grant h] at hexec hcanc
    rcases hexec with ⟨rfl, hrole⟩ | hexec
    · -- The grant made an executor, so it was checked that it is no canceller.
      have hno := (hsep hy).1 hrole.symm
      rcases hcanc with ⟨-, hrole'⟩ | hcanc
      · exact executorRole_ne_cancellerRole (hrole.trans hrole'.symm)
      · simp [hno] at hcanc
    · rcases hcanc with ⟨rfl, hrole⟩ | hcanc
      · have hno := (hsep hy).2 hrole.symm
        simp [hno] at hexec
      · exact ha.separated y hy ⟨hexec, hcanc⟩

theorem revoke (hlib : lib.Lawful) (ha : Governed lib owner a)
    (h : lib.revokeRoleNoAuth a x role = .ok a') (hx : x ≠ owner) : Governed lib owner a' where
  owner_eq := (hlib.owner_revoke h).trans ha.owner_eq
  admin_eq := (hlib.admin_revoke h).trans ha.admin_eq
  wellFormed := hlib.wellFormed_revoke ha.wellFormed h
  holds r hr :=
    (hlib.hasRole_revoke ha.wellFormed h).mpr ⟨fun heq => hx heq.1.symm, ha.holds r hr⟩
  separated y hy := by
    rintro ⟨hexec, hcanc⟩
    rw [hlib.hasRole_revoke ha.wellFormed h] at hexec hcanc
    exact ha.separated y hy ⟨hexec.2, hcanc.2⟩

end Governed

/-! ## The functions of `access.rs` -/

namespace Access

variable {lib : AccessLib A} (hlib : lib.Lawful) {a a' : A} {owner account : Address}
  {role : String}

theorem requireExecutorCancellerSeparation_ok {u : Unit}
    (h : requireExecutorCancellerSeparation lib a owner account role = .ok u)
    (hne : account ≠ owner) :
    (role = executorRole → lib.hasRole a account cancellerRole = false) ∧
      (role = cancellerRole → lib.hasRole a account executorRole = false) := by
  unfold requireExecutorCancellerSeparation at h
  rw [if_neg hne] at h
  by_cases hexec : role = executorRole
  · rw [if_pos hexec] at h
    refine ⟨fun _ => require_ok_iff.mp h, fun hcanc => ?_⟩
    exact absurd (hexec.symm.trans hcanc) executorRole_ne_cancellerRole
  · rw [if_neg hexec] at h
    refine ⟨fun heq => absurd heq hexec, fun hcanc => ?_⟩
    rw [if_pos hcanc] at h
    exact require_ok_iff.mp h

include hlib

theorem applyGrantRole_governed (ha : Governed lib owner a)
    (h : applyGrantRole lib a account role = .ok a') : Governed lib owner a' := by
  obtain ⟨o, ho, h⟩ := bind_ok h
  obtain rfl := ha.ownerOrPanic_eq ho
  obtain ⟨_, hsep, h⟩ := bind_ok h
  exact ha.grant hlib h (requireExecutorCancellerSeparation_ok hsep)

theorem applyRevokeRole_governed (ha : Governed lib owner a)
    (h : applyRevokeRole lib a account role = .ok a') : Governed lib owner a' := by
  obtain ⟨_, -, h⟩ := bind_ok h
  obtain ⟨o, ho, h⟩ := bind_ok h
  obtain rfl := ha.ownerOrPanic_eq ho
  obtain ⟨_, hne, h⟩ := bind_ok h
  have hne := require_ok_iff.mp hne
  split at h
  · obtain ⟨_, -, h⟩ := bind_ok h
    exact ha.revoke hlib h hne
  · exact ha.revoke hlib h hne

theorem applyTransferOwnership_governed {now liveUntilLedger : Nat}
    (ha : Governed lib owner a)
    (h : applyTransferOwnership lib a now account liveUntilLedger = .ok a') :
    Governed lib owner a' := by
  obtain ⟨_, -, h⟩ := bind_ok h
  obtain ⟨b, htransfer, h⟩ := bind_ok h
  have hb := ha.congr (hlib.transferRole htransfer)
  unfold syncPendingAdminTransfer at h
  split at h
  · obtain ⟨c, hpending, h⟩ := bind_ok h
    obtain ⟨_, -, h⟩ := bind_ok h
    obtain rfl := Fallible.pure_ok_iff.mp h
    obtain rfl := Except.ok.inj hpending
    exact hb.congr (hlib.removePendingAdmin b)
  · obtain ⟨c, hpending, h⟩ := bind_ok h
    obtain ⟨_, -, h⟩ := bind_ok h
    obtain rfl := Fallible.pure_ok_iff.mp h
    exact hb.congr (hlib.transferRole hpending)

/-! ### The canceller reset -/

/-- Going down from the last holder, those at or above the mark are the owner alone: a holder
swapped into a freed place was above it. -/
theorem revokeCancellers_ok {count : Nat} (ha : Governed lib owner a)
    (hmark : ∀ x i, count ≤ i → ((lib.view a).roleMembers cancellerRole).indexOf x = some i →
      x = owner)
    (h : revokeCancellers lib owner count a = .ok a') :
    Governed lib owner a' ∧ ∀ x, lib.hasRole a' x cancellerRole = true → x = owner := by
  induction count generalizing a with
  | zero =>
    obtain rfl := Except.ok.inj h
    refine ⟨ha, fun x hx => ?_⟩
    obtain ⟨i, hi⟩ := SwapIndex.contains_iff.mp hx
    exact hmark x i (Nat.zero_le i) hi
  | succ count ih =>
    obtain ⟨holder, hholder, h⟩ := bind_ok h
    have hslot := orThrow_ok_iff.mp hholder
    have hidx := ((ha.wellFormed cancellerRole).inverse count holder).mp hslot
    by_cases hne : holder ≠ owner
    · rw [if_pos hne] at h
      obtain ⟨b, hb, h⟩ := bind_ok h
      refine ih (ha.revoke hlib hb hne) (fun x i hle hi => ?_) h
      obtain ⟨-, members, hremove, hview⟩ := hlib.revoke hb
      rw [hview] at hi
      simp only [Function.update_self] at hi
      obtain ⟨k, hlt, hk⟩ :=
        SwapIndex.indexOf_remove_of_le (ha.wellFormed cancellerRole) hidx hremove hi hle
      exact hmark x k hlt hk
    · rw [if_neg hne] at h
      refine ih ha (fun x i hle hi => ?_) h
      rcases Nat.eq_or_lt_of_le hle with rfl | hlt
      · exact ((ha.wellFormed cancellerRole).index_injective hi hidx).trans (not_not.mp hne)
      · exact hmark x i hlt hi

theorem grantCanceller_ok (ha : Governed lib owner a)
    (h : grantCanceller lib owner a account = .ok a') :
    Governed lib owner a' ∧ ∀ x, lib.hasRole a' x cancellerRole = true ↔
      x = account ∨ lib.hasRole a x cancellerRole = true := by
  unfold grantCanceller at h
  split at h
  · rename_i hnew
    obtain ⟨_, hsep, h⟩ := bind_ok h
    refine ⟨ha.grant hlib h (requireExecutorCancellerSeparation_ok hsep), fun x => ?_⟩
    rw [hlib.hasRole_grant h]
    simp
  · rename_i hold
    obtain rfl := Fallible.pure_ok_iff.mp h
    refine ⟨ha, fun x => ⟨.inr, ?_⟩⟩
    rintro (rfl | hx)
    · by_cases hx : x = owner
      · rw [hx]
        exact ha.holds _ cancellerRole_mem
      · simpa [hx] using hold
    · exact hx

theorem applyCancellerReset_ok {newCancellers : List Address} (ha : Governed lib owner a)
    (h : applyCancellerReset lib a newCancellers = .ok a') :
    Governed lib owner a' ∧ ∀ x, lib.hasRole a' x cancellerRole = true ↔
      x = owner ∨ x ∈ newCancellers := by
  obtain ⟨o, ho, h⟩ := bind_ok h
  obtain rfl := ha.ownerOrPanic_eq ho
  obtain ⟨b, hrevoke, h⟩ := bind_ok h
  have hmark : ∀ x i, lib.getRoleMemberCount a cancellerRole ≤ i →
      ((lib.view a).roleMembers cancellerRole).indexOf x = some i → x = o := by
    intro x i hle hi
    have hlt := (ha.wellFormed cancellerRole).index_lt hi
    exact absurd hlt (Nat.not_lt.mpr hle)
  obtain ⟨hb, honly⟩ := revokeCancellers_ok hlib ha hmark hrevoke
  -- The list adds its own accounts to the owner.
  have hloop : ∀ (l : List Address) (b : A), Governed lib o b →
      l.foldlM (grantCanceller lib o) b = .ok a' →
      Governed lib o a' ∧ ∀ x, lib.hasRole a' x cancellerRole = true ↔
        x ∈ l ∨ lib.hasRole b x cancellerRole = true := by
    intro l
    induction l with
    | nil =>
      intro b hb h
      obtain rfl := Fallible.foldlM_nil_ok h
      exact ⟨hb, fun x => by simp⟩
    | cons account l ih =>
      intro b hb h
      obtain ⟨c, hc, h⟩ := Fallible.foldlM_cons_ok h
      obtain ⟨hc, hholders⟩ := grantCanceller_ok hlib hb hc
      obtain ⟨ha', hholders'⟩ := ih c hc h
      refine ⟨ha', fun x => ?_⟩
      rw [hholders', hholders, List.mem_cons]
      tauto
  obtain ⟨ha', hholders⟩ := hloop newCancellers b hb h
  refine ⟨ha', fun x => ?_⟩
  rw [hholders]
  constructor
  · rintro (hx | hx)
    · exact .inr hx
    · exact .inl (honly x hx)
  · rintro (rfl | hx)
    · exact .inr (hb.holds _ cancellerRole_mem)
    · exact .inl hx

/-! ### The hand-over -/

theorem handOverRole_ok {previousOwner newOwner : Address}
    (hwf : ∀ role, ((lib.view a).roleMembers role).WellFormed)
    (h : handOverRole lib previousOwner newOwner a role = .ok a') :
    (lib.getOwner a' = lib.getOwner a ∧ lib.getAdmin a' = lib.getAdmin a ∧
      ∀ role, ((lib.view a').roleMembers role).WellFormed) ∧
    ∀ y role', lib.hasRole a' y role' = true ↔
      if role' = role then y = newOwner ∨ y ≠ previousOwner ∧ lib.hasRole a y role' = true
      else lib.hasRole a y role' = true := by
  obtain ⟨b, hgrant, h⟩ := bind_ok h
  have hwf' := hlib.wellFormed_grant hwf hgrant
  split at h
  · rename_i hheld
    refine ⟨⟨(hlib.owner_revoke h).trans (hlib.owner_grant hgrant),
      (hlib.admin_revoke h).trans (hlib.admin_grant hgrant), hlib.wellFormed_revoke hwf' h⟩,
      fun y role' => ?_⟩
    rw [hlib.hasRole_revoke hwf' h, hlib.hasRole_grant hgrant]
    have hne := hheld.1
    split <;> grind
  · rename_i hnot
    obtain rfl := Fallible.pure_ok_iff.mp h
    refine ⟨⟨hlib.owner_grant hgrant, hlib.admin_grant hgrant, hwf'⟩, fun y role' => ?_⟩
    rw [hlib.hasRole_grant hgrant] at hnot ⊢
    split <;> grind

/-- After the loop the new owner holds the roles and the previous one, if another, none. -/
theorem handOverRoles_ok {previousOwner newOwner : Address} {roles : List String}
    (hwf : ∀ role, ((lib.view a).roleMembers role).WellFormed)
    (h : roles.foldlM (handOverRole lib previousOwner newOwner) a = .ok a') :
    (lib.getOwner a' = lib.getOwner a ∧ lib.getAdmin a' = lib.getAdmin a ∧
      ∀ role, ((lib.view a').roleMembers role).WellFormed) ∧
    ∀ y role', lib.hasRole a' y role' = true ↔
      if role' ∈ roles then y = newOwner ∨ y ≠ previousOwner ∧ lib.hasRole a y role' = true
      else lib.hasRole a y role' = true := by
  induction roles generalizing a with
  | nil =>
    obtain rfl := Fallible.foldlM_nil_ok h
    exact ⟨⟨rfl, rfl, hwf⟩, fun y role' => by simp⟩
  | cons role roles ih =>
    obtain ⟨b, hb, h⟩ := Fallible.foldlM_cons_ok h
    obtain ⟨⟨howner, hadmin, hwf'⟩, hroles⟩ := handOverRole_ok hlib hwf hb
    obtain ⟨⟨howner', hadmin', hwf''⟩, hroles'⟩ := ih hwf' h
    refine ⟨⟨howner'.trans howner, hadmin'.trans hadmin, hwf''⟩, fun y role' => ?_⟩
    rw [hroles', hroles]
    simp only [List.mem_cons]
    split <;> split <;> grind

/-- The pending owner takes over. -/
theorem acceptOwnership_governed {now : Nat} {signers : List Address} (ha : Governed lib owner a)
    (h : acceptOwnership lib a now signers = .ok a') : ∃ newOwner, Governed lib newOwner a' := by
  obtain ⟨o, ho, h⟩ := bind_ok h
  obtain rfl := ha.ownerOrPanic_eq ho
  obtain ⟨b, haccept, h⟩ := bind_ok h
  obtain ⟨newOwner, -, -, hview⟩ := hlib.acceptOwnership haccept
  obtain ⟨n, hn, h⟩ := bind_ok h
  have hn : n = newOwner := by
    have hn := orThrow_ok_iff.mp hn
    unfold AccessLib.getOwner at hn
    rw [hview] at hn
    exact (Option.some.inj hn).symm
  subst hn
  have hstart : lib.view (lib.removePendingAdmin (lib.writeAdmin b n)) =
      { lib.view a with owner := some n, admin := some n } := by
    rw [hlib.removePendingAdmin, hlib.writeAdmin, hview]
  have hwf : ∀ role, ((lib.view (lib.removePendingAdmin (lib.writeAdmin b n))).roleMembers
      role).WellFormed := by
    rw [hstart]
    exact ha.wellFormed
  obtain ⟨⟨howner, hadmin, hwf'⟩, hroles⟩ := handOverRoles_ok hlib hwf h
  have hold : ∀ y role, lib.hasRole (lib.removePendingAdmin (lib.writeAdmin b n)) y role =
      lib.hasRole a y role := by
    intro y role
    unfold AccessLib.hasRole
    rw [hstart]
  refine ⟨n, ?_, ?_, hwf', fun role hrole => ?_, fun x hx hboth => ?_⟩
  · rw [howner]
    unfold AccessLib.getOwner
    rw [hstart]
  · rw [hadmin]
    unfold AccessLib.getAdmin
    rw [hstart]
  · rw [hroles, if_pos hrole]
    exact .inl rfl
  · rw [hroles, hroles, if_pos (by decide), if_pos (by decide), hold, hold] at hboth
    have hexec := hboth.1.resolve_left hx
    have hcanc := hboth.2.resolve_left hx
    exact ha.separated x hexec.1 ⟨hexec.2, hcanc.2⟩

/-- The constructor makes the admin the owner and grants it every role. -/
theorem grantRoles_ok {roles : List String}
    (hwf : ∀ role, ((lib.view a).roleMembers role).WellFormed)
    (h : roles.foldlM (fun a role => lib.grantRoleNoAuth a account role) a = .ok a') :
    (lib.getOwner a' = lib.getOwner a ∧ lib.getAdmin a' = lib.getAdmin a ∧
      ∀ role, ((lib.view a').roleMembers role).WellFormed) ∧
    ∀ y role', lib.hasRole a' y role' = true ↔
      y = account ∧ role' ∈ roles ∨ lib.hasRole a y role' = true := by
  induction roles generalizing a with
  | nil =>
    obtain rfl := Fallible.foldlM_nil_ok h
    exact ⟨⟨rfl, rfl, hwf⟩, fun y role' => by simp⟩
  | cons role roles ih =>
    obtain ⟨b, hb, h⟩ := Fallible.foldlM_cons_ok h
    obtain ⟨⟨howner, hadmin, hwf'⟩, hroles⟩ := ih (hlib.wellFormed_grant hwf hb) h
    refine ⟨⟨howner.trans (hlib.owner_grant hb), hadmin.trans (hlib.admin_grant hb), hwf'⟩,
      fun y role' => ?_⟩
    rw [hroles, hlib.hasRole_grant hb, List.mem_cons]
    tauto

end Access

theorem construct_governed {g : GovernanceEnv Id T A W} (hg : g.access.Lawful) {world : W}
    {admin : Address} {minDelay : Nat} {s : GovernanceState Id T A W}
    (h : construct g world admin minDelay = .ok s) : Governed g.access admin s.access := by
  obtain ⟨a, howner, h⟩ := bind_ok h
  obtain ⟨b, hadmin, h⟩ := bind_ok h
  obtain ⟨c, hroles, h⟩ := bind_ok h
  obtain ⟨_, -, h⟩ := bind_ok h
  obtain rfl := Fallible.pure_ok_iff.mp h
  have hview : g.access.view b =
      { g.access.view g.access.fresh with owner := some admin, admin := some admin } := by
    rw [hg.setAdmin hadmin, hg.setOwner howner]
  have hfresh : ∀ role, (g.access.view b).roleMembers role = .empty := by
    intro role
    rw [hview]
    exact hg.fresh role
  have hwf : ∀ role, ((g.access.view b).roleMembers role).WellFormed := by
    intro role
    rw [hfresh]
    exact SwapIndex.empty_wellFormed
  obtain ⟨⟨howner', hadmin', hwf'⟩, hholds⟩ := Access.grantRoles_ok hg hwf hroles
  have hnone : ∀ y role, g.access.hasRole b y role = false := by
    intro y role
    unfold AccessLib.hasRole
    rw [hfresh]
    rfl
  refine ⟨?_, ?_, hwf', fun role hrole => (hholds admin role).mpr (.inl ⟨rfl, hrole⟩), ?_⟩
  · rw [howner']
    unfold AccessLib.getOwner
    rw [hview]
  · rw [hadmin']
    unfold AccessLib.getAdmin
    rw [hview]
  · rintro x hx ⟨hexec, -⟩
    rw [hholds, hnone] at hexec
    rcases hexec with ⟨heq, -⟩ | hexec
    · exact hx heq
    · cases hexec

/-! ## Runs -/

/-- How a call moves the access state. -/
inductive AccessMove (lib : AccessLib A) (a : A) : A → Prop
  | same : AccessMove lib a a
  | grant {a' : A} {account : Address} {role : String}
      (h : Access.applyGrantRole lib a account role = .ok a') : AccessMove lib a a'
  | revoke {a' : A} {account : Address} {role : String}
      (h : Access.applyRevokeRole lib a account role = .ok a') : AccessMove lib a a'
  | transfer {a' : A} {now liveUntilLedger : Nat} {newOwner : Address}
      (h : Access.applyTransferOwnership lib a now newOwner liveUntilLedger = .ok a') :
      AccessMove lib a a'
  | reset {a' : A} {newCancellers : List Address}
      (h : Access.applyCancellerReset lib a newCancellers = .ok a') : AccessMove lib a a'
  | accept {a' : A} {now : Nat} {signers : List Address}
      (h : Access.acceptOwnership lib a now signers = .ok a') : AccessMove lib a a'

theorem AccessMove.governed {lib : AccessLib A} (hlib : lib.Lawful) {a a' : A} {owner : Address}
    (hmove : AccessMove lib a a') (ha : Governed lib owner a) :
    ∃ owner', Governed lib owner' a' := by
  cases hmove with
  | same => exact ⟨owner, ha⟩
  | grant h => exact ⟨owner, Access.applyGrantRole_governed hlib ha h⟩
  | revoke h => exact ⟨owner, Access.applyRevokeRole_governed hlib ha h⟩
  | transfer h => exact ⟨owner, Access.applyTransferOwnership_governed hlib ha h⟩
  | reset h => exact ⟨owner, (Access.applyCancellerReset_ok hlib ha h).1⟩
  | accept h => exact Access.acceptOwnership_governed hlib ha h

section Runs

variable {g : GovernanceEnv Id T A W} {s s' : GovernanceState Id T A W} {now : Nat}

theorem applySelfOp_access {op : AdminOperation} (h : applySelfOp g s now op = .ok s') :
    AccessMove g.access s.access s'.access := by
  unfold applySelfOp at h
  split at h
  · obtain rfl := Fallible.pure_ok_iff.mp h
    exact .same
  · obtain ⟨t, -, h⟩ := bind_ok h
    obtain rfl := Fallible.pure_ok_iff.mp h
    exact .same
  · obtain ⟨a, ha, h⟩ := bind_ok h
    obtain rfl := Fallible.pure_ok_iff.mp h
    exact .grant ha
  · obtain ⟨a, ha, h⟩ := bind_ok h
    obtain rfl := Fallible.pure_ok_iff.mp h
    exact .revoke ha
  · obtain ⟨a, ha, h⟩ := bind_ok h
    obtain rfl := Fallible.pure_ok_iff.mp h
    exact .transfer ha
  · obtain ⟨_, -, h⟩ := bind_ok h
    obtain ⟨_, -, h⟩ := bind_ok h
    obtain ⟨w, v, -, rfl⟩ := invoke_ok h
    exact .same
  · cases h

variable [DecidableEq Id]

theorem markProposal_access {id : Id} {op : AdminOperation} :
    (markProposal s id op).access = s.access := by
  unfold markProposal
  split <;> rfl

theorem GovernanceCall.exec_access {signers : List Address} {call : GovernanceCall Id}
    (h : call.exec g now signers s = .ok s') : AccessMove g.access s.access s'.access := by
  cases call with
  | deployController wasmHash =>
    obtain ⟨-, w, controller, -, rfl⟩ := deployController_ok h
    exact .same
  | deployPriceAggregator wasmHash =>
    obtain ⟨w, w', aggregator, -, -, rfl⟩ := deployPriceAggregator_ok h
    exact .same
  | execute executor operation =>
    obtain ⟨⟨t, v⟩, hexec, h⟩ := bind_ok h
    obtain rfl := Fallible.pure_ok_iff.mp h
    obtain ⟨-, t, w, -, -, rfl⟩ := execute_ok hexec
    exact .same
  | cancel canceller operationId =>
    obtain ⟨-, -, -, t, -, rfl⟩ := cancel_ok h
    exact .same
  | propose proposer op salt =>
    obtain ⟨⟨t, id⟩, hpropose, h⟩ := bind_ok h
    obtain rfl := Fallible.pure_ok_iff.mp h
    obtain ⟨-, -, operation, tier, t, -, -, rfl⟩ := propose_ok hpropose
    rw [markProposal_access]
    exact .same
  | setSanityBand caller key minWad maxWad =>
    obtain ⟨aggregator, w, v, -, -, rfl⟩ := setSanityBand_ok h
    exact .same
  | revokeRoleImmediate account role =>
    obtain ⟨-, a, ha, rfl⟩ := revokeRoleImmediate_ok h
    exact .revoke ha
  | executeSelf executor op salt =>
    obtain ⟨operation, tier, t, s₁, -, -, -, hself, rfl⟩ := executeSelf_ok h
    have hmove := applySelfOp_access hself
    exact hmove
  | proposeCancellerReset newCancellers salt =>
    obtain ⟨⟨t, id⟩, hpropose, h⟩ := bind_ok h
    obtain rfl := Fallible.pure_ok_iff.mp h
    obtain ⟨-, t, -, rfl⟩ := proposeCancellerReset_ok hpropose
    exact .same
  | executeCancellerReset executor newCancellers salt =>
    obtain ⟨t, a, -, hreset, rfl⟩ := executeCancellerReset_ok h
    exact .reset hreset
  | acceptOwnership =>
    obtain ⟨a, ha, h⟩ := bind_ok h
    obtain rfl := Fallible.pure_ok_iff.mp h
    exact .accept ha
  | pause | setSpokeAssetFlags | createHub | addSpoke | deactivatePositionManager
  | revokeBlendPool =>
    obtain ⟨-, controller, w, v, -, -, rfl⟩ := controllerCall_ok h
    exact .same

theorem GovernanceRun.governed {outside : W → W → Prop} (hg : g.access.Lawful)
    {log : GovernanceLog Id T A W} {m : Moment Id T A W}
    (hrun : GovernanceRun g outside log m) : ∃ owner, Governed g.access owner m.access := by
  obtain ⟨world, admin, minDelay, now, s, hs, hrun⟩ := hrun
  refine hrun.invariant (I := fun _ m => ∃ owner, Governed g.access owner m.access)
    ⟨admin, construct_governed hg hs⟩ ?_
  rintro log m e m' - ⟨owner, hm⟩ hstep
  cases hstep with
  | call _ _ hexec => exact (GovernanceCall.exec_access hexec).governed hg hm
  | outside _ _ => exact ⟨owner, hm⟩

/-- **Roles.** In every run, at every moment: the owner is the access-control admin and holds the
five operational roles, so that there is always a proposer, and no other account holds both
EXECUTOR and CANCELLER. A canceller reset leaves the owner and the listed accounts as the
cancellers. -/
theorem governance_roles {outside : W → W → Prop} (hg : g.access.Lawful)
    {log : GovernanceLog Id T A W} {m : Moment Id T A W} (hrun : GovernanceRun g outside log m) :
    (∃ owner, g.access.getOwner m.access = some owner ∧ g.access.getAdmin m.access = some owner ∧
      (∀ role ∈ defaultOperationalRoles, g.access.hasRole m.access owner role = true) ∧
      ∀ account, account ≠ owner →
        ¬ (g.access.hasRole m.access account executorRole = true ∧
          g.access.hasRole m.access account cancellerRole = true)) ∧
    (∃ proposer, g.access.hasRole m.access proposer proposerRole = true) ∧
    ∀ x ∈ log, ∀ signers executor newCancellers salt,
      x.event = .call signers (.executeCancellerReset executor newCancellers salt) →
      ∀ account, g.access.hasRole x.after.access account cancellerRole = true ↔
        g.access.getOwner x.after.access = some account ∨ account ∈ newCancellers := by
  obtain ⟨owner, hm⟩ := hrun.governed hg
  refine ⟨⟨owner, hm.owner_eq, hm.admin_eq, hm.holds, hm.separated⟩,
    ⟨owner, hm.holds _ (by decide)⟩, ?_⟩
  rintro ⟨before, event, after⟩ hx signers executor newCancellers salt rfl account
  obtain ⟨later, earlier, rfl⟩ := List.append_of_mem hx
  obtain ⟨hbefore, hstep⟩ := hrun.at_transition
  obtain ⟨owner, hbefore⟩ := hbefore.governed hg
  obtain ⟨t, a, -, hreset, hs⟩ := executeCancellerReset_ok hstep.exec
  have haccess : after.access = a := congrArg GovernanceState.access hs
  obtain ⟨hafter, hholders⟩ := Access.applyCancellerReset_ok hg hbefore hreset
  rw [haccess, hholders, hafter.owner_eq, Option.some.injEq, eq_comm]

end Runs

namespace Sample

/-- Address 1 deploys, makes 5 an executor, proposes a reset of the cancellers to 6 and 7 and hands
the ownership over to 5, who accepts before the reset is executed. -/
def roleCalls : List (SignedCall Reference.OperationId) :=
  [(100, [1], .propose 1 (.grantGovRole ⟨5, executorRole⟩) 0),
    (120, [], .executeSelf none (.grantGovRole ⟨5, executorRole⟩) 0),
    (120, [1], .proposeCancellerReset [6, 7] 0),
    (130, [1], .propose 1 (.transferGovOwnership ⟨5, 1_000⟩) 1),
    (150, [5], .executeSelf (some 5) (.transferGovOwnership ⟨5, 1_000⟩) 1),
    (160, [5], .acceptOwnership),
    (518_520, [], .executeCancellerReset none [6, 7] 0)]

end Sample

/-- The run above: 5 ends as owner and admin, and the cancellers are 5, 6 and 7. -/
theorem governance_roles_sample :
    ∃ log m, GovernanceRun (Reference.env Reference.quietHost) (fun _ _ => False) log m ∧
      Reference.access.getOwner m.access = some 5 ∧
      Reference.access.getAdmin m.access = some 5 ∧
      ∀ account, Reference.access.hasRole m.access account cancellerRole = true ↔
        account = 5 ∨ account ∈ [6, 7] := by
  have hreplay : (replay (Reference.env Reference.quietHost) () 1 20 100
      Sample.roleCalls).toOption.map (fun r => r.1.head?.map fun x =>
        (x.event, Reference.access.getOwner x.after.access)) =
      some (some (.call [] (.executeCancellerReset none [6, 7] 0), some 5)) := by
    decide +kernel
  obtain ⟨x, earlier, hrun, hx⟩ := replay_last (fun _ _ => False) hreplay
  obtain ⟨hevent, howner⟩ := Prod.mk.inj hx
  have hroles := governance_roles Reference.access_lawful hrun
  obtain ⟨o, ho, hadmin, -⟩ := hroles.1
  refine ⟨_, _, hrun, howner, ?_, fun account => ?_⟩
  · obtain rfl : o = 5 := Option.some.inj (ho.symm.trans howner)
    exact hadmin
  · have hreset := hroles.2.2 x List.mem_cons_self [] none [6, 7] 0 hevent account
    change Reference.access.hasRole x.after.access account cancellerRole = true ↔
      Reference.access.getOwner x.after.access = some account ∨ account ∈ [6, 7] at hreset
    rw [hreset, howner, Option.some.injEq, eq_comm]

end Lending.Gov
