import RemoteSlots.Proofs.Initiation.Accounts
import RemoteSlots.Proofs.World.Handover

/-!
This module shows that nothing is forgotten: whatever a party held on the loopback fabric and nobody holds any
more was given back, however the party came to let go of it.
-/

namespace RemoteSlots

open Std

namespace Custody

def Redeems : List Request → Prop
  | [] => True
  | request :: requests =>
    (∀ handle ∈ request.handles, ∃ r ∈ request :: requests, r.givesBack? = some handle) ∧ Redeems requests

theorem Redeems.exists_givesBack {requests : List Request} (h : Redeems requests) {handle : Handle}
    (hmem : handle ∈ requests.flatMap Request.handles) : ∃ r ∈ requests, r.givesBack? = some handle := by
  induction requests with
  | nil => contradiction
  | cons request requests ih =>
    rw [List.flatMap_cons, List.mem_append] at hmem
    rcases hmem with hhead | htail
    · exact h.1 handle hhead
    · obtain ⟨r, hr, hback⟩ := ih h.2 htail
      exact ⟨r, List.mem_cons_of_mem _ hr, hback⟩

theorem mem_release_of_not_isBlock {custody : Custody} {handle : Handle} (hmem : handle ∈ custody.handles)
    (hblock : handle.isBlock = false) : handle ∈ custody.release.flatMap Request.handles := by
  rcases List.mem_append.mp hmem with hrelease | hblocks
  · exact hrelease
  · obtain ⟨b, -, rfl⟩ := List.mem_map.mp hblocks
    contradiction

variable {before after : Custody} {request : Option Request} {acquired : List Handle}

theorem Step.redeems (h : Step before request acquired after) (hbefore : Redeems before.release) :
    Redeems after.release := by
  cases h with
  | keep | mapped | unmapped => exact hbefore
  | created c => exact ⟨fun handle hmem => ⟨_, List.mem_cons_self .., List.mem_singleton.mp hmem ▸ rfl⟩, trivial⟩
  | accepted c k queues endpoint =>
    exact ⟨fun handle hmem => ⟨_, List.mem_cons_self .., List.mem_singleton.mp hmem ▸ rfl⟩, hbefore⟩
  | registered request endpoint keys release block =>
    refine ⟨fun handle hmem => ⟨.disconnect endpoint, ?_, List.mem_singleton.mp hmem ▸ rfl⟩, hbefore⟩
    exact List.mem_cons_of_mem _ (List.mem_cons_self ..)
  | given => exact hbefore.2

theorem Step.request_of_not_mem (h : Step before request acquired after) (hbefore : Redeems before.release)
    {handle : Handle} (hblock : handle.isBlock = false) (hmem : handle ∈ before.handles)
    (hgone : handle ∉ after.handles) : ∃ r, request = some r ∧ r.givesBack? = some handle := by
  have hrelease := mem_release_of_not_isBlock hmem hblock
  have hkept : handle ∉ after.release.flatMap Request.handles := fun hkept => hgone (List.mem_append_left _ hkept)
  cases h with
  | keep | mapped | unmapped => exact absurd hrelease hkept
  | created => contradiction
  | accepted => exact absurd (List.mem_append_right _ hrelease) hkept
  | registered => exact absurd (List.mem_append_right _ hrelease) hkept
  | given request release reply =>
    obtain ⟨r, hr, hback⟩ := hbefore.exists_givesBack hrelease
    rcases List.mem_cons.mp hr with rfl | hlater
    · exact ⟨r, rfl, hback⟩
    · exact absurd (List.mem_flatMap.mpr ⟨r, hlater, Request.mem_handles_of_givesBack hback⟩) hkept

end Custody

namespace Loopback

theorem Evolves.serveAll (net : Loopback) (memory : Memory) (requests : List Request) :
    net.Evolves (net.serveAll memory requests) := by
  unfold Loopback.serveAll
  induction requests generalizing net with
  | nil => exact .refl net
  | cons request requests ih => exact (Evolves.serve net memory request).trans (ih _)

end Loopback

theorem Handle.isGone_serveAll {memory : Memory} {net : Loopback} {requests : List Request} {handle : Handle}
    (hnet : net.Sound) (hendpoints : ∀ request ∈ requests, ∀ k, .endpoint k ∈ request.handles → k ∉ net.pending)
    (hissued : handle.IsIssued memory net) {r : Request} (hr : r ∈ requests)
    (hback : r.givesBack? = some handle) : handle.IsGone (net.serveAll memory requests) := by
  induction requests generalizing net with
  | nil => contradiction
  | cons request requests ih =>
    have hevolves := Loopback.Evolves.serve net memory request
    rcases List.mem_cons.mp hr with rfl | hlater
    · exact (isGone_of_givesBack hback hissued).evolves (.serveAll ..)
    · refine ih (hnet.serve (hendpoints request (List.mem_cons_self ..))) ?_
        (hissued.mono hnet hevolves (Nat.le_refl _)) hlater
      intro other hother k hk hpending
      exact hendpoints other (List.mem_cons_of_mem _ hother) k hk (Loopback.mem_pending_of_serve hpending)

namespace World

variable {w w' : World}

def Promises (w : World) (kind : List Request → Prop) : Prop :=
  ∀ party fabric custody, w.custody? party = some (fabric, custody) → kind custody.release

/--
Whether every party is going to give back what it holds.
-/
def Redeems (w : World) : Prop :=
  ∀ party fabric custody, w.custody? party = some (fabric, custody) → Custody.Redeems custody.release

section Promises

variable {kind : List Request → Prop} (nothing : kind [])
  (step : ∀ {before after : Custody} {request : Option Request} {acquired : List Handle},
    Custody.Step before request acquired after → kind before.release → kind after.release)

include nothing step

theorem Handover.promises {action : Action} (h : w.Handover w' action) (hw : w.Promises kind) :
    w'.Promises kind := by
  intro party fabric custody hcustody
  have hkept : w'.custody? party = w.custody? party → kind custody.release :=
    fun heq => hw party fabric custody (heq.symm.trans hcustody)
  have hfree : ∀ {fabric' custody'}, w'.custody? party = some (fabric', custody') →
      kind custody'.release → kind custody.release := by
    intro fabric' custody' heq hkind
    rw [heq] at hcustody
    obtain ⟨-, rfl⟩ := Prod.mk.inj (Option.some.inj hcustody)
    exact hkind
  cases h with
  | @moves σ move mover fabric before after actor custody custody' hstep net others =>
    by_cases hparty : party = mover
    · subst hparty
      exact hfree custody' (step hstep (hw _ _ _ custody))
    · exact hkept (others party hparty)
  | @shares id fabric before b registers custody custody' net others =>
    by_cases hparty : party = .session id
    · subst hparty
      have hrelease := hw _ _ _ custody
      exact hfree custody' hrelease
    · exact hkept (others party hparty)
  | @publishes id s fabric held call store call' store' net others =>
    by_cases hcall : party = .call id
    · subst hcall
      exact hfree call' nothing
    · by_cases hstore : party = .store s
      · subst hstore
        exact hfree store' (hw _ _ _ call)
      · exact hkept (others party hcall hstore)
  | settles parties =>
    cases parties party with
    | keeps same => exact hkept same
    | idles _ hafter =>
      rw [hafter fabric custody hcustody]
      exact nothing
    | releases released =>
      rw [released.1] at hcustody
      contradiction

theorem Reachable.promises (h : w.Reachable) : w.Promises kind := by
  induction w, h using Reachable.induct with
  | initial mapper now =>
    intro party fabric custody hcustody
    cases party <;> simp [custody?, World.initial, empty] at hcustody
  | act w action h _ _ ih => exact (h.handover action).promises nothing step ih

end Promises

theorem Handover.redeems {action : Action} (h : w.Handover w' action) (hw : w.Redeems) : w'.Redeems :=
  h.promises trivial Custody.Step.redeems hw

theorem Reachable.redeems (h : w.Reachable) : w.Redeems := h.promises trivial Custody.Step.redeems

theorem Reachable.isRelease (h : w.Reachable) {party : Party} {fabric : FabricId} {custody : Custody}
    (hcustody : w.custody? party = some (fabric, custody)) : custody.IsRelease := by
  have hkind : w.Promises fun release => ∀ r ∈ release, ∀ reply, r.acquired reply = [] := by
    refine h.promises ?_ ?_
    · exact fun r hr => by contradiction
    · exact fun hstep hbefore => hstep.isRelease hbefore
  exact hkind party fabric custody hcustody

theorem Reachable.isGone (h : w.Reachable) {action : Action} {party : Party} {handle : Handle}
    (hblock : handle.isBlock = false) (hheld : handle ∈ w.holdings party)
    (hfree : ∀ q, handle ∉ (w.act action).holdings q) : handle.IsGone (w.act action).net := by
  obtain ⟨hw, -⟩ := h.sound
  have hissued := hw.issued party handle hheld
  have hkept : (w.act action).custody? party ≠ w.custody? party :=
    fun heq => hfree party (by rwa [holdings_eq heq])
  cases h.handover action with
  | @moves σ move mover fabric before after actor custody custody' step net others =>
    by_cases hparty : party = mover
    · subst hparty
      obtain ⟨hmem, hvisible⟩ := (mem_holdings_iff custody).mp hheld
      obtain rfl : fabric = .loopback := by simpa [hblock] using hvisible
      obtain ⟨r, hrequest, hback⟩ := step.request_of_not_mem (h.redeems _ _ _ custody) hblock hmem
        fun hmem => hfree party ((mem_holdings_iff custody').mpr ⟨hmem, .inl rfl⟩)
      obtain ⟨resume, rfl⟩ := Move.eq_ask hrequest
      rw [net]
      exact Handle.isGone_of_givesBack hback hissued
    · exact absurd (others party hparty) hkept
  | @shares id fabric before b registers custody custody' net others =>
    by_cases hparty : party = .session id
    · subst hparty
      obtain ⟨hmem, hvisible⟩ := (mem_holdings_iff custody).mp hheld
      have hrelease := Custody.mem_release_of_not_isBlock hmem hblock
      exact absurd ((mem_holdings_iff custody').mpr ⟨List.mem_append_left _ hrelease, hvisible⟩) (hfree _)
    · exact absurd (others party hparty) hkept
  | @publishes id s fabric held call store call' store' net others =>
    by_cases hcall : party = .call id
    · subst hcall
      exact absurd ((mem_holdings_iff store').mpr ((mem_holdings_iff call).mp hheld)) (hfree _)
    · by_cases hstore : party = .store s
      · subst hstore
        rw [(IsFree.of_empty store).holdings_eq] at hheld
        contradiction
      · exact absurd (others party hcall hstore) hkept
  | settles parties =>
    cases parties party with
    | keeps same => exact absurd same hkept
    | idles hbefore _ =>
      rw [hbefore.holdings_eq] at hheld
      contradiction
    | releases released =>
      rcases hcustody : w.custody? party with _ | ⟨fabric, custody⟩
      · exact absurd (released.1.trans hcustody.symm) hkept
      · obtain ⟨hmem, hvisible⟩ := (mem_holdings_iff hcustody).mp hheld
        obtain rfl : fabric = .loopback := by simpa [hblock] using hvisible
        obtain ⟨r, hr, hback⟩ := (h.redeems _ _ _ hcustody).exists_givesBack
          (Custody.mem_release_of_not_isBlock hmem hblock)
        rw [released.2 custody hcustody]
        refine Handle.isGone_serveAll hw.net ?_ hissued hr hback
        intro request hrequest k hk
        have hown : .endpoint k ∈ w.holdings party :=
          (mem_holdings_iff hcustody).mpr ⟨Custody.mem_handles_of_mem_release hrequest hk, .inl rfl⟩
        exact (hw.issued party _ hown).2

theorem isGone_of_isOpenTo (hw : w.Sound) {request : Request} {handle : Handle} (hopen : w.isOpenTo request)
    (hback : request.givesBack? = some handle) : handle.IsGone (w.act (.request request)).net := by
  have huse := mayUse_of_isOpenTo hw hopen handle (Request.mem_handles_of_givesBack hback)
  simp only [act, if_pos hopen]
  exact Handle.isGone_of_givesBack hback huse.1.1

end World

end RemoteSlots
