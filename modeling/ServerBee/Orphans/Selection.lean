/-
Who the public page shows while servers come and go.

Deletions leave the selection of the page as it is; only a clean-up takes servers out of it, and an empty selection shows every server
that is not hidden. So as long as no administrator writes the page, a server beside the selection is shown from the moment on when all
selected servers were cleaned up.
-/
import ServerBee.Orphans.Coverage

namespace ServerBee.Orphans

open Status

variable {F : Type}

/-! ## What clean-ups take out -/

/-- the servers that a step takes out of the lists -/
def prunedBy (s : St F) : Op F → List String
  | .prune =>
    match s.cleanup with
    | .deleted deletedIds => if (removeReferences s deletedIds).isSome then deletedIds else []
    | _ => []
  | _ => []

def prunedIn (s : St F) : List (Op F) → List String
  | [] => []
  | op :: ops => prunedBy s op ++ prunedIn (step s op) ops

theorem run_append (s : St F) (ops ops' : List (Op F)) : run s (ops ++ ops') = run (run s ops) ops' := List.foldl_append

theorem prunedIn_append (s : St F) (ops ops' : List (Op F)) :
    prunedIn s (ops ++ ops') = prunedIn s ops ++ prunedIn (run s ops) ops' := by
  induction ops generalizing s with
  | nil => rfl
  | cons op ops ih =>
    rw [List.cons_append, prunedIn, prunedIn, ih, List.append_assoc]
    rfl

/-! ## The selection -/

theorem prunePage_ok {page : StatusPage F} {selected : List String} (h : page.serverIds = .ok selected) (orphanIds : List String) :
    (prunePage orphanIds page).serverIds = .ok (selected.filter fun id => !orphanIds.contains id) := by
  have hids : page.serverIds.toOption = some selected := by rw [h]; rfl
  unfold prunePage
  cases hremove : removeIds page.serverIds.toOption orphanIds with
  | none =>
    have hkeep : (selected.filter fun id => !orphanIds.contains id) = selected := by
      rw [List.filter_eq_self]
      intro id hid
      have hout := removeIds_eq_none.1 hremove id (by rwa [hids])
      simpa using hout
    simp only [h, hkeep]
  | some rest =>
    have hrest := removeIds_eq_some hremove
    rw [hids] at hrest
    simp only [hrest, Option.getD_some]

theorem removeReferences_page {s s' : St F} {orphanIds : List String} (h : removeReferences s orphanIds = some s') :
    s'.base.statusPage = s.base.statusPage.map (prunePage orphanIds) := by
  obtain ⟨s₁, h₁, rfl⟩ := Option.map_eq_some_iff.1 h
  unfold removeServerReferences at h₁
  split_ifs at h₁
  cases h₁
  rfl

/-- only a clean-up and an administrator write the page -/
theorem step_page (s : St F) {op : Op F} (hprune : op ≠ .prune) (hwrite : ∀ page, op ≠ .writePage page) :
    (step s op).base.statusPage = s.base.statusPage := by
  cases op with
  | register srv =>
    simp only [step]
    split_ifs
    · rfl
    · rfl
  | edit srv => rfl
  | connect id => rfl
  | disconnect id => rfl
  | delete ids => rfl
  | writePage page => exact absurd rfl (hwrite page)
  | collect =>
    simp only [step]
    cases s.cleanup with
    | idle =>
      simp only
      split_ifs
      · rfl
      · rfl
    | collected ids => rfl
    | deleted ids => rfl
  | remove =>
    simp only [step]
    cases s.cleanup with
    | idle => rfl
    | collected ids =>
      simp only
      split_ifs
      · rfl
      · rfl
    | deleted ids => rfl
  | prune => exact absurd rfl hprune
  | abandon => rfl

theorem prunedBy_eq_nil (s : St F) {op : Op F} (hprune : op ≠ .prune) : prunedBy s op = [] := by
  cases op with
  | prune => exact absurd rfl hprune
  | _ => rfl

/-- a step takes out of the selection what its clean-up removes, and leaves the rest -/
theorem step_selection {s : St F} {page : StatusPage F} {selected : List String} (hpage : s.base.statusPage = some page)
    (hsel : page.serverIds = .ok selected) {op : Op F} (hop : ∀ page', op ≠ .writePage page') :
    ∃ page', (step s op).base.statusPage = some page' ∧
      page'.serverIds = .ok (selected.filter fun id => !(prunedBy s op).contains id) := by
  have hunpruned : ∀ op : Op F, prunedBy s op = [] → page.serverIds = .ok (selected.filter fun id => !(prunedBy s op).contains id) := by
    intro op hnil
    simp [hsel, hnil]
  by_cases hprune : op = .prune
  · subst hprune
    cases hcleanup : s.cleanup with
    | idle => exact ⟨page, by simp [step, hcleanup, hpage], hunpruned _ (by simp [prunedBy, hcleanup])⟩
    | collected ids => exact ⟨page, by simp [step, hcleanup, hpage], hunpruned _ (by simp [prunedBy, hcleanup])⟩
    | deleted ids =>
      cases hremove : removeReferences s ids with
      | none => exact ⟨page, by simp [step, hcleanup, hremove, hpage], hunpruned _ (by simp [prunedBy, hcleanup, hremove])⟩
      | some s' =>
        refine ⟨prunePage ids page, ?_, ?_⟩
        · simp [step, hcleanup, hremove, removeReferences_page hremove, hpage]
        · simp [prunedBy, hcleanup, hremove, prunePage_ok hsel]
  · exact ⟨page, by rw [step_page s hprune hop, hpage], hunpruned op (prunedBy_eq_nil s hprune)⟩

/-- what is left of the selection after a run -/
theorem run_selection {s : St F} {page : StatusPage F} {selected : List String} (hpage : s.base.statusPage = some page)
    (hsel : page.serverIds = .ok selected) {ops : List (Op F)} (hops : ∀ op ∈ ops, ∀ page', op ≠ .writePage page') :
    ∃ page', (run s ops).base.statusPage = some page' ∧
      page'.serverIds = .ok (selected.filter fun id => !(prunedIn s ops).contains id) := by
  induction ops generalizing s page selected with
  | nil => exact ⟨page, hpage, by simp [prunedIn, hsel]⟩
  | cons op ops ih =>
    obtain ⟨page₁, hpage₁, hsel₁⟩ := step_selection hpage hsel (hops op List.mem_cons_self)
    obtain ⟨page₂, hpage₂, hsel₂⟩ := ih hpage₁ hsel₁ fun op' hop' => hops op' (List.mem_cons_of_mem op hop')
    refine ⟨page₂, hpage₂, ?_⟩
    rw [hsel₂, List.filter_filter, prunedIn]
    congr 1
    apply List.filter_congr
    intro id _
    rw [Bool.eq_iff_iff]
    simp [and_comm]

/-! ## Where clean-ups have their servers from -/

/-- a clean-up of the run read the server as a candidate that had never reported and had no connection -/
def FoundIn (s : St F) (ops : List (Op F)) (id : String) : Prop :=
  ∃ before after, ops = before ++ .collect :: after ∧ id ∈ collectOrphanServerIds (run s before).base

def Cleanup.ids : Cleanup → List String
  | .idle => []
  | .collected ids => ids
  | .deleted ids => ids

theorem FoundIn.snoc {s : St F} {ops : List (Op F)} {id : String} (h : FoundIn s ops id) (op : Op F) : FoundIn s (ops ++ [op]) id := by
  obtain ⟨before, after, rfl, hid⟩ := h
  exact ⟨before, after ++ [op], by simp, hid⟩

/-- a step gives a clean-up what it collects, and nothing else -/
theorem step_cleanup (s : St F) (op : Op F) {id : String} (h : id ∈ (step s op).cleanup.ids) :
    id ∈ s.cleanup.ids ∨ (op = .collect ∧ id ∈ collectOrphanServerIds s.base) := by
  cases op with
  | register srv =>
    simp only [step] at h
    split_ifs at h
    · exact .inl h
    · exact .inl h
  | edit srv => exact .inl h
  | connect id' => exact .inl h
  | disconnect id' => exact .inl h
  | delete ids => exact .inl h
  | writePage page => exact .inl h
  | collect =>
    simp only [step] at h
    cases hcleanup : s.cleanup with
    | idle =>
      simp only [hcleanup] at h
      split_ifs at h
      · rw [hcleanup] at h
        exact .inl h
      · exact .inr ⟨rfl, h⟩
    | collected ids =>
      simp only [hcleanup] at h
      exact .inl h
    | deleted ids =>
      simp only [hcleanup] at h
      exact .inl h
  | remove =>
    simp only [step] at h
    cases hcleanup : s.cleanup with
    | idle =>
      simp only [hcleanup] at h
      exact .inl h
    | collected ids =>
      simp only [hcleanup] at h
      split_ifs at h
      · cases h
      · have hin := (List.mem_filter.1 h).2
        exact .inl (by simpa [Cleanup.ids] using hin)
    | deleted ids =>
      simp only [hcleanup] at h
      exact .inl h
  | prune =>
    simp only [step] at h
    cases hcleanup : s.cleanup with
    | idle =>
      simp only [hcleanup] at h
      exact .inl h
    | collected ids =>
      simp only [hcleanup] at h
      exact .inl h
    | deleted ids =>
      simp only [hcleanup] at h
      cases h
  | abandon => cases h

theorem prunedBy_subset (s : St F) (op : Op F) {id : String} (h : id ∈ prunedBy s op) : id ∈ s.cleanup.ids := by
  cases op with
  | prune =>
    simp only [prunedBy] at h
    cases hcleanup : s.cleanup with
    | idle =>
      rw [hcleanup] at h
      cases h
    | collected ids =>
      rw [hcleanup] at h
      cases h
    | deleted ids =>
      rw [hcleanup] at h
      simp only at h
      split_ifs at h
      · exact h
      · cases h
  | _ => cases h

/-- whatever a clean-up holds or took out, it had found before -/
theorem run_found {s : St F} (hidle : s.cleanup = .idle) (ops : List (Op F)) :
    (∀ id ∈ (run s ops).cleanup.ids, FoundIn s ops id) ∧ ∀ id ∈ prunedIn s ops, FoundIn s ops id := by
  induction ops using List.reverseRecOn with
  | nil =>
    refine ⟨?_, ?_⟩
    · intro id hid
      rw [run, List.foldl_nil, hidle] at hid
      cases hid
    · intro id hid
      cases hid
  | append_singleton ops op ih =>
    obtain ⟨ihheld, ihpruned⟩ := ih
    refine ⟨?_, ?_⟩
    · intro id hid
      rw [run_append] at hid
      rcases step_cleanup (run s ops) op hid with hheld | ⟨rfl, hfound⟩
      · exact (ihheld id hheld).snoc op
      · exact ⟨ops, [], rfl, hfound⟩
    · intro id hid
      rw [prunedIn_append, List.mem_append] at hid
      rcases hid with hid | hid
      · exact (ihpruned id hid).snoc op
      · rw [prunedIn, prunedIn, List.append_nil] at hid
        exact (ihheld id (prunedBy_subset _ op hid)).snoc op

/-! ## Who is shown -/

/-- **Selection.** In every run without a write of the page, whatever clean-ups do at any of their steps: the page shows a server
exactly if it is there, not hidden, and selected and not cleaned up, or if every selected server was cleaned up. What was cleaned up
had been read, at a step of the run, as a server without a name of its own, without an operating system and without a connection. -/
theorem visible_run_iff {s : St F} {page : StatusPage F} {selected : List String} (hidle : s.cleanup = .idle)
    (hpage : s.base.statusPage = some page) (hsel : page.serverIds = .ok selected) {ops : List (Op F)}
    (hops : ∀ op ∈ ops, ∀ page', op ≠ .writePage page') :
    (∀ srv, srv ∈ visible (run s ops).base ↔ srv ∈ (run s ops).base.servers ∧ srv.hidden = false ∧
      ((srv.id ∈ selected ∧ srv.id ∉ prunedIn s ops) ∨ ∀ id ∈ selected, id ∈ prunedIn s ops)) ∧
      ∀ id ∈ prunedIn s ops, FoundIn s ops id := by
  refine ⟨fun srv => ?_, (run_found hidle ops).2⟩
  obtain ⟨page', hpage', hsel'⟩ := run_selection hpage hsel hops
  have hempty : (selected.filter fun id => !(prunedIn s ops).contains id) = [] ↔ ∀ id ∈ selected, id ∈ prunedIn s ops := by
    rw [List.filter_eq_nil_iff]
    simp
  rw [mem_visible]
  refine and_congr_right fun _ => ?_
  have hshows : (∃ page, (run s ops).base.statusPage = some page ∧ page.shows srv = true) ↔ page'.shows srv = true := by
    rw [hpage']
    simp
  rw [hshows, StatusPage.shows, hsel', Bool.and_eq_true, Bool.not_eq_true', Bool.or_eq_true, List.isEmpty_iff, hempty,
    List.contains_iff_mem, List.mem_filter]
  refine and_congr_right fun _ => ?_
  rw [or_comm]
  simp

def row (id name : String) (os : Option String) : Server :=
  { id := id, name := name, groupId := none, region := none, countryCode := none, publicRemark := none, os := os, hidden := false,
    memTotal := none, swapTotal := none, diskTotal := none, cpuName := none, cpuCores := none, cpuArch := none,
    kernelVersion := none, agentVersion := none }

def ghost : Server := row "ghost" "New Server" none

def vault : Server := row "vault" "vault" (some "Linux")

theorem ghost_vault_nodup : ([ghost, vault].map Server.id).Nodup := by decide

/-- a page that selects a server that has not reported yet -/
def ghostPage : StatusPage ℕ :=
  { title := "Status", description := none, serverIds := .ok ["ghost"], enabled := true, defaultLayout := "grid",
    showServerDetail := true, showNetwork := false, showIpQuality := false, showIncidents := true, showMaintenance := true,
    uptimeYellowThreshold := 99, uptimeRedThreshold := 95 }

def ghostSelected : St ℕ :=
  { quiet with
    base := { quiet.base with servers := [ghost, vault], servers_nodup := ghost_vault_nodup, statusPage := some ghostPage } }

/-- after the clean-up of the one server that it selects, the page shows the other -/
theorem vault_shown : vault ∈ visible (run ghostSelected [.collect, .remove, .prune]).base :=
  ((visible_run_iff rfl rfl rfl (by simp)).1 vault).2 ⟨by decide, rfl, .inr (by decide)⟩

end ServerBee.Orphans
