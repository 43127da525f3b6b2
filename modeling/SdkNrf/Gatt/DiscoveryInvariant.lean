import SdkNrf.Gatt.Discovery

/-!
# Services that are discovered

Which services the application is told of, and with which attributes.
-/

namespace SdkNrf.Gatt

def Service.reportable (s : Service) : Bool := s.primary && decide (s.handle < s.endHandle)

def expected (uuid : Option Uuid) (services : List Service) : List (List Attr) :=
  ((services.dropWhile fun s => !(s.reportable && wanted uuid s)).filter Service.reportable).map
    Service.layout

theorem expected_of_skipped {uuid : Option Uuid} {l₁ l₂ : List Service}
    (h : ∀ s ∈ l₁, (s.reportable && wanted uuid s) = false) :
    expected uuid (l₁ ++ l₂) = expected uuid l₂ := by
  rw [expected, List.dropWhile_append_of_pos fun s hs => by simp only [h s hs, Bool.not_false], expected]

theorem filter_dropWhile_not {α : Type} (p : α → Bool) (l : List α) :
    (l.dropWhile fun a => !p a).filter p = l.filter p := by
  induction l with
  | nil => rfl
  | cons a l ih =>
    by_cases ha : p a
    · simp [ha]
    · simp [ha, ih]

theorem expected_cons {uuid : Option Uuid} {s : Service} {l : List Service}
    (hs : s.reportable = true) (huuid : wanted uuid s = true) :
    expected uuid (s :: l) = s.layout :: expected none l := by
  have hnone : (fun s => !(Service.reportable s && wanted none s)) = fun s => !Service.reportable s := by
    funext s
    simp [wanted]
  rw [expected, expected, hnone, filter_dropWhile_not, List.dropWhile_cons_of_neg (by simp [hs, huuid]),
    List.filter_cons_of_pos hs, List.map_cons]

theorem Service.layout_inside {s : Service} {a : Attr} (ha : a ∈ s.layout) :
    s.handle ≤ a.handle ∧ a.handle ≤ s.endHandle := by
  rcases List.mem_cons.mp ha with rfl | ha
  · exact ⟨le_rfl, s.handle_le⟩
  · exact ⟨(s.inside a ha).1.le, (s.inside a ha).2⟩

theorem Service.layout_ascending (s : Service) :
    s.layout.Pairwise fun a b => a.handle < b.handle :=
  List.pairwise_cons.mpr ⟨fun a ha => (s.inside a ha).1, s.ascending⟩

namespace Database

variable {db : Database} {pre suf : List Service} {s : Service}

theorem before (h : db.services = pre ++ s :: suf) {t : Service} (ht : t ∈ pre) :
    t.endHandle < s.handle := by
  have hascending := db.ascending
  rw [h] at hascending
  exact (List.pairwise_append.mp hascending).2.2 t ht s (by simp)

theorem behind (h : db.services = pre ++ s :: suf) {t : Service} (ht : t ∈ suf) :
    s.endHandle < t.handle := by
  have hascending := db.ascending
  rw [h] at hascending
  exact (List.pairwise_cons.mp (List.pairwise_append.mp hascending).2.1).1 t ht

theorem filter_range (h : db.services = pre ++ s :: suf) :
    (db.services.flatMap Service.layout).filter
      (fun a => decide (s.handle + 1 ≤ a.handle ∧ a.handle ≤ s.endHandle)) = s.attrs := by
  have hpre : (pre.flatMap Service.layout).filter
      (fun a => decide (s.handle + 1 ≤ a.handle ∧ a.handle ≤ s.endHandle)) = [] := by
    rw [List.filter_eq_nil_iff]
    intro a ha
    obtain ⟨t, ht, hat⟩ := List.mem_flatMap.mp ha
    have hbefore := before h ht
    have hinside := Service.layout_inside hat
    simp only [decide_eq_true_eq]
    omega
  have hsuf : (suf.flatMap Service.layout).filter
      (fun a => decide (s.handle + 1 ≤ a.handle ∧ a.handle ≤ s.endHandle)) = [] := by
    rw [List.filter_eq_nil_iff]
    intro a ha
    obtain ⟨t, ht, hat⟩ := List.mem_flatMap.mp ha
    have hbehind := behind h ht
    have hinside := Service.layout_inside hat
    simp only [decide_eq_true_eq]
    omega
  have hself : s.layout.filter
      (fun a => decide (s.handle + 1 ≤ a.handle ∧ a.handle ≤ s.endHandle)) = s.attrs := by
    rw [Service.layout, List.filter_cons_of_neg (by simp [Service.declaration])]
    rw [List.filter_eq_self]
    intro a ha
    simpa using s.inside a ha
  rw [h, List.flatMap_append, List.flatMap_cons, List.filter_append, List.filter_append, hpre, hself,
    hsuf, List.nil_append, List.append_nil]

theorem reports_attribute (h : db.services = pre ++ s :: suf) (uuid : Option Uuid) :
    db.reports .attribute uuid (s.handle + 1) s.endHandle = s.attrs.map Attr.bare := by
  rw [reports, filter_range h]

theorem reports_characteristic (h : db.services = pre ++ s :: suf) (uuid : Option Uuid) :
    db.reports .characteristic uuid (s.handle + 1) s.endHandle = s.attrs.filter Attr.isChrc := by
  rw [reports, ← List.filter_filter, filter_range h]

theorem reports_primary (h : db.services = pre ++ suf) {startHandle : Nat}
    (hpre : ∀ s ∈ pre, s.handle < startHandle) (hsuf : ∀ s ∈ suf, startHandle ≤ s.handle)
    (uuid : Option Uuid) : db.reports .primary uuid startHandle 0xffff =
      (suf.filter fun s => s.primary && wanted uuid s).map Service.declaration := by
  have hbounded (s : Service) (hs : s ∈ suf) : s.handle ≤ 0xffff :=
    s.handle_le.trans (db.bounded s (by simp [h, hs])).2
  have hnone : pre.filter (fun s => s.primary && wanted uuid s &&
      decide (startHandle ≤ s.handle ∧ s.handle ≤ 0xffff)) = [] := by
    rw [List.filter_eq_nil_iff]
    intro s hs
    have hlt := hpre s hs
    simp only [Bool.and_eq_true, decide_eq_true_eq]
    omega
  rw [reports, h, List.filter_append, hnone, List.nil_append]
  congr 1
  apply List.filter_congr
  intro s hs
  simp [hsuf s hs, hbounded s hs]

end Database

def completedOf (log : List Outcome) : List (List Attr) :=
  log.filterMap fun
    | .completed attrs => some attrs
    | _ => none

structure Told (db : Database) (svcUuid : Option Uuid) (dm : Dm) (rest : List (List Attr)) : Prop where
  found : completedOf dm.log ++ rest = expected svcUuid db.services
  notFound : Outcome.serviceNotFound ∈ dm.log → rest = []
  calm : ∀ o ∈ dm.log, o = .serviceNotFound ∨ ∃ attrs, o = .completed attrs

/-- A pass of the discovery. The services up to `pre` are done; the attributes of a service are `done`,
which have been reported in the pass, and `rest`. -/
inductive Phase (db : Database) (svcUuid : Option Uuid) (dm : Dm) : Prop
  | idle (pre suf : List Service) (services : db.services = pre ++ suf) (reports : dm.reports = none)
      (before : ∀ s ∈ pre, s.endHandle ≤ dm.endHandle) (behind : ∀ s ∈ suf, dm.endHandle < s.handle)
      (told : Told db svcUuid dm (expected dm.uuid suf)) (locked : dm.locked = dm.releasePending)
      (released : dm.locked = false → dm.attrs = [])
  | servicePass (pre suf : List Service) (services : db.services = pre ++ suf)
      (reports : dm.reports = some ((suf.filter fun s => s.primary && wanted dm.uuid s).map
        Service.declaration))
      (type : dm.type = .primary) (endHandle : dm.endHandle = 0xffff)
      (told : Told db svcUuid dm (expected dm.uuid suf)) (locked : dm.locked = true)
      (releasePending : dm.releasePending = false)
  | attributePass (pre suf : List Service) (s : Service) (services : db.services = pre ++ s :: suf)
      (done rest : List Attr) (attrs : s.attrs = done ++ rest)
      (reports : dm.reports = some (rest.map Attr.bare)) (type : dm.type = .attribute)
      (stored : dm.attrs = s.declaration :: done.map Attr.bare) (uuid : dm.uuid = none)
      (endHandle : dm.endHandle = s.endHandle)
      (told : Told db svcUuid dm (s.layout :: expected none suf)) (locked : dm.locked = true)
      (releasePending : dm.releasePending = false)
  | characteristicPass (pre suf : List Service) (s : Service) (services : db.services = pre ++ s :: suf)
      (done rest : List Attr) (attrs : s.attrs = done ++ rest)
      (reports : dm.reports = some (rest.filter Attr.isChrc)) (type : dm.type = .characteristic)
      (stored : dm.attrs = s.declaration :: (done ++ rest.map Attr.bare)) (uuid : dm.uuid = none)
      (endHandle : dm.endHandle = s.endHandle)
      (told : Told db svcUuid dm (s.layout :: expected none suf)) (locked : dm.locked = true)
      (releasePending : dm.releasePending = false)

def Attr.declarationOnly (a : Attr) : Bool :=
  match a.value with
  | .service _ endHandle => a.handle = endHandle
  | _ => false

/-- Behind a service that has only its declaration, no other one is reported in the same pass, unless it
has only its declaration, too, and there is room for it. -/
def Undisturbed (maxAttrs : Nat) (dm : Dm) : Event → Prop
  | .report discoverErr => discoverErr = 0 ∧ (dm.type = .primary → ∀ reports ∈ dm.reports,
      ∀ a ∈ reports.head?, dm.attrs = [] ∨ (a.declarationOnly = true ∧ dm.attrs.length < maxAttrs))
  | .dataRelease => True
  | .dmContinue discoverErr => discoverErr = 0

instance (maxAttrs : Nat) (dm : Dm) (e : Event) : Decidable (Undisturbed maxAttrs dm e) := by
  cases e <;> unfold Undisturbed <;> infer_instance

/-- The application is told of the services that are to be reported, in order, with all their attributes,
and of no service only when it has been told of all. Each attribute is found by its handle. -/
structure DmRight (db : Database) (svcUuid : Option Uuid) (dm : Dm) : Prop where
  found : completedOf dm.log <+: expected svcUuid db.services
  notFound : Outcome.serviceNotFound ∈ dm.log → completedOf dm.log = expected svcUuid db.services
  calm : ∀ o ∈ dm.log, o = .serviceNotFound ∨ ∃ attrs, o = .completed attrs
  lookup : ∀ attrs ∈ completedOf dm.log, ∀ a ∈ attrs,
    ∃ i, Dm.attrFindByHandle attrs a.handle = some i ∧ attrs[i]? = some a

namespace Told

variable {db : Database} {svcUuid : Option Uuid} {dm dm' : Dm} {rest : List (List Attr)}

theorem of_log (h : Told db svcUuid dm rest) (hlog : dm'.log = dm.log) : Told db svcUuid dm' rest :=
  ⟨hlog ▸ h.found, hlog ▸ h.notFound, hlog ▸ h.calm⟩

theorem complete {attrs : List Attr} (h : Told db svcUuid dm (attrs :: rest))
    (hlog : dm'.log = dm.log ++ [.completed attrs]) : Told db svcUuid dm' rest := by
  refine ⟨?_, fun hmem => ?_, fun o ho => ?_⟩
  · rw [hlog, completedOf, List.filterMap_append]
    simpa [completedOf] using h.found
  · rw [hlog] at hmem
    exact absurd (h.notFound (by simpa using hmem)) (by simp)
  · rw [hlog, List.mem_append, List.mem_singleton] at ho
    exact ho.elim (h.calm o) fun heq => Or.inr ⟨attrs, heq⟩

theorem none_found (h : Told db svcUuid dm []) (hlog : dm'.log = dm.log ++ [.serviceNotFound]) :
    Told db svcUuid dm' [] := by
  refine ⟨?_, fun _ => rfl, fun o ho => ?_⟩
  · rw [hlog, completedOf, List.filterMap_append]
    simpa [completedOf] using h.found
  · rw [hlog, List.mem_append, List.mem_singleton] at ho
    exact ho.elim (h.calm o) Or.inl

theorem right (h : Told db svcUuid dm rest) : DmRight db svcUuid dm := by
  refine ⟨⟨rest, h.found⟩, fun hmem => ?_, h.calm, fun attrs hattrs a ha => ?_⟩
  · have hfound := h.found
    rwa [h.notFound hmem, List.append_nil] at hfound
  · have hmem : attrs ∈ expected svcUuid db.services := by
      rw [← h.found]
      exact List.mem_append_left _ hattrs
    obtain ⟨s, -, rfl⟩ := List.mem_map.mp hmem
    obtain ⟨i, hi⟩ := List.mem_iff_getElem?.mp ha
    exact ⟨i, searchByKey_of_getElem? s.layout_ascending hi, hi⟩

end Told

theorem Phase.right {db : Database} {svcUuid : Option Uuid} {dm : Dm} (h : Phase db svcUuid dm) :
    DmRight db svcUuid dm := by
  cases h with
  | idle _ _ _ _ _ _ told => exact told.right
  | servicePass _ _ _ _ _ _ told => exact told.right
  | attributePass _ _ _ _ _ _ _ _ _ _ _ _ told => exact told.right
  | characteristicPass _ _ _ _ _ _ _ _ _ _ _ _ told => exact told.right

section Steps

variable {db : Database} {svcUuid : Option Uuid} {dm : Dm} {maxAttrs : Nat}

theorem start_phase (h : Dm.start db 0 svcUuid = .ok dm) : Phase db svcUuid dm := by
  have hdm : dm = Dm.gattDiscover db
      ⟨svcUuid, 0x0001, 0xffff, .primary, [], true, false, none, []⟩ := by
    rw [Dm.start.eq_def] at h
    split at h
    · cases h
    · exact (Except.ok.inj h).symm
  have hservices : db.services = [] ++ db.services := rfl
  have hreports : db.reports .primary svcUuid 0x0001 0xffff =
      (db.services.filter fun s => s.primary && wanted svcUuid s).map Service.declaration :=
    Database.reports_primary hservices (fun s hs => by cases hs) (fun s hs => (db.bounded s hs).1) svcUuid
  rw [hdm]
  exact .servicePass [] db.services rfl (congrArg some hreports) rfl rfl
    ⟨rfl, fun hmem => absurd hmem List.not_mem_nil, fun o ho => absurd ho List.not_mem_nil⟩ rfl rfl

theorem Phase.dataRelease (h : Phase db svcUuid dm) : Phase db svcUuid dm.dataRelease.1 := by
  rw [Dm.dataRelease]
  split_ifs with hpending
  · cases h with
    | idle pre suf services reports before behind told locked released =>
      exact .idle pre suf services reports before behind (told.of_log rfl) rfl fun _ => rfl
    | servicePass => simp_all
    | attributePass => simp_all
    | characteristicPass => simp_all
  · exact h

theorem Phase.dmContinue (h : Phase db svcUuid dm) : Phase db svcUuid (dm.dmContinue db 0).1 := by
  cases h with
  | idle pre suf services reports before behind told locked released =>
    simp only [Dm.dmContinue, ne_eq, not_true_eq_false, if_false]
    split_ifs with huuid hlocked hend
    · exact .idle pre suf services reports before behind told locked released
    · exact .idle pre suf services reports before behind told locked released
    · have hsuf : suf = [] := by
        apply List.eq_nil_iff_forall_not_mem.mpr
        intro s hs
        have hbehind := behind s hs
        have hbounded := (db.bounded s (by simp [services, hs])).2
        have hle := s.handle_le
        omega
      subst hsuf
      have hpending : dm.releasePending = false := locked ▸ (by simpa using hlocked)
      exact .idle pre [] services reports before behind (told.none_found rfl) hpending.symm fun _ => rfl
    · have hpre (s : Service) (hs : s ∈ pre) : s.handle < dm.endHandle + 1 := by
        have hle := s.handle_le
        have hbefore := before s hs
        omega
      have hpending : dm.releasePending = false := locked ▸ (by simpa using hlocked)
      exact .servicePass pre suf services (congrArg some (Database.reports_primary services hpre behind _))
        rfl rfl (told.of_log rfl) rfl hpending
  | servicePass pre suf services reports type endHandle told locked releasePending =>
    have hsame : (dm.dmContinue db 0).1 = dm := by
      simp [Dm.dmContinue, locked]
      split <;> rfl
    rw [hsame]
    exact .servicePass pre suf services reports type endHandle told locked releasePending
  | attributePass pre suf s services done rest attrs reports type stored uuid endHandle told locked
      releasePending =>
    simp only [Dm.dmContinue, uuid, locked]
    exact .attributePass pre suf s services done rest attrs reports type stored uuid endHandle told
      locked releasePending
  | characteristicPass pre suf s services done rest attrs reports type stored uuid endHandle told locked
      releasePending =>
    simp only [Dm.dmContinue, uuid, locked]
    exact .characteristicPass pre suf s services done rest attrs reports type stored uuid endHandle told
      locked releasePending

theorem modify_append_cons {α : Type} (l₁ l₂ : List α) (a : α) (f : α → α) :
    (l₁ ++ a :: l₂).modify l₁.length f = l₁ ++ f a :: l₂ := by
  induction l₁ with
  | nil => rfl
  | cons b l₁ ih => simp [ih]

theorem Attr.bare_bare (a : Attr) : a.bare.bare = a.bare := rfl

theorem map_bare_handle (l : List Attr) : (l.map Attr.bare).map Attr.handle = l.map Attr.handle := by
  rw [List.map_map]
  rfl

theorem attrStore_of_room {a : Attr} (hroom : dm.attrs.length < maxAttrs) :
    dm.attrStore maxAttrs a = some { dm with attrs := dm.attrs ++ [a.bare] } := by
  rw [Dm.attrStore, if_neg (by omega)]

theorem processService_declaration {s : Service} (hprimary : s.primary = true)
    (hroom : dm.attrs.length < maxAttrs) :
    dm.discoveryProcessService db maxAttrs 0 (some s.declaration) =
      if s.handle = s.endHandle then ({ dm with attrs := dm.attrs ++ [s.declaration] }, .cont)
      else (Dm.gattDiscover db { dm with
        attrs := dm.attrs ++ [s.declaration]
        uuid := none
        type := .attribute
        startHandle := s.handle + 1
        endHandle := s.endHandle }, .stop) := by
  have huuid : s.declaration.uuid = .primary := by simp [Service.declaration, hprimary]
  have hset : Dm.setValue { dm with attrs := dm.attrs ++ [s.declaration.bare] }
      ((dm.attrs ++ [s.declaration.bare]).length - 1) (.service s.uuid s.endHandle) =
        { dm with attrs := dm.attrs ++ [s.declaration] } := by
    rw [Dm.setValue, List.length_append, List.length_singleton, Nat.add_sub_cancel,
      modify_append_cons]
    rfl
  have hsame : ¬ (s.declaration.uuid.same .primary = false ∧ s.declaration.uuid.same .secondary = false) := by
    rw [huuid]
    decide
  have hvalue : s.declaration.value = .service s.uuid s.endHandle := rfl
  simp only [Dm.discoveryProcessService, hvalue, attrStore_of_room hroom, if_neg hsame, hset, ne_eq,
    not_true_eq_false, if_false]
  rfl

theorem report_nil (hreports : dm.reports = some []) : dm.report db maxAttrs 0 =
    (Dm.discoveryCallback db maxAttrs 0 { dm with reports := none } none).1 := by
  rw [Dm.report, hreports]

theorem report_cons {a : Attr} {rest : List Attr} {r : Dm × Iter}
    (hreports : dm.reports = some (a :: rest))
    (hr : Dm.discoveryCallback db maxAttrs 0 { dm with reports := none } (some a) = r) :
    dm.report db maxAttrs 0 = if r.2 = .cont then { r.1 with reports := some rest } else r.1 := by
  rw [Dm.report, hreports, ← hr]

theorem callback_service (htype : dm.type = .primary) (a : Option Attr) :
    Dm.discoveryCallback db maxAttrs 0 { dm with reports := none } a =
      Dm.discoveryProcessService db maxAttrs 0 { dm with reports := none } a := by
  rw [Dm.discoveryCallback, htype]

theorem callback_attribute (htype : dm.type = .attribute) (a : Option Attr) :
    Dm.discoveryCallback db maxAttrs 0 { dm with reports := none } a =
      Dm.discoveryProcessAttribute db maxAttrs 0 { dm with reports := none } a := by
  rw [Dm.discoveryCallback, htype]

theorem callback_characteristic (htype : dm.type = .characteristic) (a : Option Attr) :
    Dm.discoveryCallback db maxAttrs 0 { dm with reports := none } a =
      Dm.discoveryProcessCharacteristic { dm with reports := none } a := by
  rw [Dm.discoveryCallback, htype]

theorem Phase.report_service (hcapacity : ∀ s ∈ db.services, s.layout.length ≤ maxAttrs)
    {pre suf : List Service} (services : db.services = pre ++ suf)
    (reports : dm.reports = some ((suf.filter fun s => s.primary && wanted dm.uuid s).map
      Service.declaration)) (type : dm.type = .primary) (endHandle : dm.endHandle = 0xffff)
    (told : Told db svcUuid dm (expected dm.uuid suf)) (locked : dm.locked = true)
    (releasePending : dm.releasePending = false) (hguard : Undisturbed maxAttrs dm (.report 0)) :
    Phase db svcUuid (dm.report db maxAttrs 0) := by
  cases hfilter : suf.filter fun s => s.primary && wanted dm.uuid s with
  | nil =>
    have hreport : dm.report db maxAttrs 0 =
        Dm.discoveryCompleteNotFound { dm with reports := none } := by
      rw [hfilter] at reports
      rw [report_nil reports, callback_service type]
      rfl
    have hskipped (s : Service) (hs : s ∈ suf) : (s.reportable && wanted dm.uuid s) = false := by
      have hnot := List.filter_eq_nil_iff.mp hfilter s hs
      simp only [Service.reportable]
      grind
    have htold : Told db svcUuid dm [] := by
      have hnil : expected dm.uuid (suf ++ []) = expected dm.uuid [] :=
        expected_of_skipped hskipped
      rw [List.append_nil] at hnil
      rw [hnil] at told
      exact told
    have hall : db.services = db.services ++ [] := by simp
    rw [hreport]
    exact .idle db.services [] hall rfl (fun s hs => endHandle ▸ (db.bounded s hs).2)
      (fun s hs => absurd hs List.not_mem_nil) (htold.none_found rfl) releasePending.symm fun _ => rfl
  | cons s l =>
    obtain ⟨l₁, l₂, rfl, hl₁, hs, rfl⟩ := List.filter_eq_cons_iff.mp hfilter
    rw [hfilter, List.map_cons] at reports
    have hprimary : s.primary = true := by simp_all
    have hwanted : wanted dm.uuid s = true := by simp_all
    have hmem : s ∈ db.services := by simp [services]
    have hcase := hguard.2 type _ reports s.declaration rfl
    have hroom : dm.attrs.length < maxAttrs := by
      rcases hcase with hempty | ⟨-, hroom⟩
      · have hlength := hcapacity s hmem
        simp only [Service.layout, List.length_cons] at hlength
        simp only [hempty, List.length_nil]
        omega
      · exact hroom
    have hskipped (t : Service) (ht : t ∈ l₁) : (t.reportable && wanted dm.uuid t) = false := by
      have hnot := hl₁ t ht
      simp only [Service.reportable]
      grind
    rw [expected_of_skipped hskipped] at told
    have hprocess := @processService_declaration db { dm with reports := none } maxAttrs s hprimary hroom
    have hservices : db.services = (pre ++ l₁) ++ s :: l₂ := by rw [services, List.append_assoc]
    by_cases hend : s.handle = s.endHandle
    · have hreport : dm.report db maxAttrs 0 =
          { dm with
            attrs := dm.attrs ++ [s.declaration]
            reports := some ((l₂.filter fun s => s.primary && wanted dm.uuid s).map
              Service.declaration) } := by
        rw [if_pos hend] at hprocess
        rw [report_cons reports ((callback_service type _).trans hprocess), if_pos rfl]
      have hreportable : (s.reportable && wanted dm.uuid s) = false := by
        simp [Service.reportable, hend]
      have hskip : expected dm.uuid ([s] ++ l₂) = expected dm.uuid l₂ :=
        expected_of_skipped (by simpa using hreportable)
      rw [List.singleton_append] at hskip
      rw [hskip] at told
      rw [List.append_cons] at hservices
      rw [hreport]
      exact .servicePass _ l₂ hservices rfl type endHandle (told.of_log rfl) locked releasePending
    · have hreport : dm.report db maxAttrs 0 = Dm.gattDiscover db { dm with
          attrs := dm.attrs ++ [s.declaration]
          uuid := none
          type := .attribute
          startHandle := s.handle + 1
          endHandle := s.endHandle
          reports := none } := by
        rw [if_neg hend] at hprocess
        rw [report_cons reports ((callback_service type _).trans hprocess), if_neg (by simp)]
      have hempty : dm.attrs = [] := by
        apply hcase.resolve_right
        rintro ⟨honly, -⟩
        simp [Attr.declarationOnly, Service.declaration, hend] at honly
      have hreportable : s.reportable = true := by
        have hlt := lt_of_le_of_ne s.handle_le hend
        simp [Service.reportable, hprimary, hlt]
      rw [expected_cons hreportable hwanted] at told
      rw [hreport]
      exact .attributePass _ l₂ s hservices [] s.attrs rfl
        (congrArg some (Database.reports_attribute hservices none)) rfl (by simp [Dm.gattDiscover, hempty])
        rfl rfl (told.of_log rfl) locked releasePending

theorem Phase.of_complete {pre suf : List Service} {s : Service}
    (services : db.services = pre ++ s :: suf) (hreports : dm.reports = none) (stored : dm.attrs = s.layout)
    (uuid : dm.uuid = none) (endHandle : dm.endHandle = s.endHandle)
    (told : Told db svcUuid dm (s.layout :: expected none suf)) (locked : dm.locked = true) :
    Phase db svcUuid dm.discoveryComplete := by
  have hservices : db.services = (pre ++ [s]) ++ suf := by rw [services, List.append_cons]
  have hbefore (t : Service) (ht : t ∈ pre ++ [s]) : t.endHandle ≤ dm.endHandle := by
    rw [endHandle]
    rcases List.mem_append.mp ht with ht | ht
    · exact ((Database.before services ht).trans_le s.handle_le).le
    · rw [List.mem_singleton.mp ht]
  have hbehind (t : Service) (ht : t ∈ suf) : dm.endHandle < t.handle :=
    endHandle ▸ Database.behind services ht
  have htold : Told db svcUuid dm.discoveryComplete (expected dm.uuid suf) := by
    rw [uuid]
    exact told.complete (by rw [← stored]; rfl)
  exact .idle _ suf hservices hreports hbefore hbehind htold locked fun hfalse => by
    rw [show dm.discoveryComplete.locked = dm.locked from rfl, locked] at hfalse
    cases hfalse

theorem Phase.report_attribute (hcapacity : ∀ s ∈ db.services, s.layout.length ≤ maxAttrs)
    {pre suf : List Service} {s : Service} (services : db.services = pre ++ s :: suf)
    {done rest : List Attr} (attrs : s.attrs = done ++ rest)
    (reports : dm.reports = some (rest.map Attr.bare)) (type : dm.type = .attribute)
    (stored : dm.attrs = s.declaration :: done.map Attr.bare) (uuid : dm.uuid = none)
    (endHandle : dm.endHandle = s.endHandle)
    (told : Told db svcUuid dm (s.layout :: expected none suf)) (locked : dm.locked = true)
    (releasePending : dm.releasePending = false) : Phase db svcUuid (dm.report db maxAttrs 0) := by
  cases rest with
  | nil =>
    rw [List.append_nil] at attrs
    cases done with
    | nil =>
      have hreport : dm.report db maxAttrs 0 = Dm.discoveryComplete { dm with reports := none } := by
        rw [report_nil reports, callback_attribute type, Dm.discoveryProcessAttribute]
        simp only [stored, List.map_nil]
      rw [hreport]
      exact of_complete services rfl (by simp [stored, Service.layout, attrs]) uuid endHandle
        (told.of_log rfl) locked
    | cons a done =>
      have hreport : dm.report db maxAttrs 0 = Dm.gattDiscover db { dm with
          startHandle := s.handle + 1
          type := .characteristic
          reports := none } := by
        rw [report_nil reports, callback_attribute type, Dm.discoveryProcessAttribute]
        simp [stored, Service.declaration]
      have hreports : (Dm.gattDiscover db { dm with
          startHandle := s.handle + 1
          type := .characteristic
          reports := none }).reports = some (s.attrs.filter Attr.isChrc) := by
        simp only [Dm.gattDiscover, endHandle]
        exact congrArg some (Database.reports_characteristic services _)
      rw [hreport]
      exact .characteristicPass pre suf s services [] s.attrs rfl hreports rfl
        (by simp [Dm.gattDiscover, stored, attrs]) uuid endHandle (told.of_log rfl) locked releasePending
  | cons a rest =>
    have hroom : dm.attrs.length < maxAttrs := by
      have hlength := hcapacity s (by simp [services])
      simp only [Service.layout, attrs, List.length_cons, List.length_append] at hlength
      simp only [stored, List.length_cons, List.length_map]
      omega
    have hstore : ({ dm with reports := none } : Dm).attrStore maxAttrs a.bare =
        some { { dm with reports := none } with attrs := dm.attrs ++ [a.bare.bare] } :=
      attrStore_of_room hroom
    have hreport : dm.report db maxAttrs 0 = { dm with
        attrs := dm.attrs ++ [a.bare]
        reports := some (rest.map Attr.bare) } := by
      have hprocess : Dm.discoveryProcessAttribute db maxAttrs 0 { dm with reports := none }
          (some a.bare) = ({ dm with attrs := dm.attrs ++ [a.bare], reports := none }, .cont) := by
        simp only [Dm.discoveryProcessAttribute, hstore, Attr.bare_bare]
      rw [report_cons reports ((callback_attribute type _).trans hprocess), if_pos rfl]
    rw [hreport]
    rw [List.append_cons] at attrs
    exact .attributePass pre suf s services (done ++ [a]) rest attrs rfl type (by simp [stored]) uuid
      endHandle (told.of_log rfl) locked releasePending

theorem Service.bare_of_not_chrc (s : Service) {a : Attr} (ha : a ∈ s.attrs) (hchrc : a.isChrc = false) :
    a.bare = a := by
  have hvalue := s.values a ha
  simp only [hchrc, Bool.false_eq_true, if_false] at hvalue
  rw [Attr.bare, ← hvalue]

theorem Phase.report_characteristic {pre suf : List Service} {s : Service}
    (services : db.services = pre ++ s :: suf) {done rest : List Attr} (attrs : s.attrs = done ++ rest)
    (reports : dm.reports = some (rest.filter Attr.isChrc)) (type : dm.type = .characteristic)
    (stored : dm.attrs = s.declaration :: (done ++ rest.map Attr.bare)) (uuid : dm.uuid = none)
    (endHandle : dm.endHandle = s.endHandle)
    (told : Told db svcUuid dm (s.layout :: expected none suf)) (locked : dm.locked = true)
    (releasePending : dm.releasePending = false) : Phase db svcUuid (dm.report db maxAttrs 0) := by
  -- Attributes that are not characteristics have no value that is missing.
  have hbare {l : List Attr} (hl : ∀ a ∈ l, a ∈ s.attrs) (hnot : ∀ a ∈ l, ¬ a.isChrc = true) :
      l.map Attr.bare = l := by
    refine (List.map_congr_left fun a ha => ?_).trans l.map_id
    exact s.bare_of_not_chrc (hl a ha) (by simpa using hnot a ha)
  cases hfilter : rest.filter Attr.isChrc with
  | nil =>
    rw [hfilter] at reports
    rw [hbare (by simp +contextual [attrs]) (List.filter_eq_nil_iff.mp hfilter), ← attrs] at stored
    have hreport : dm.report db maxAttrs 0 = Dm.discoveryComplete { dm with reports := none } := by
      rw [report_nil reports, callback_characteristic type]
      rfl
    rw [hreport]
    exact of_complete services rfl stored uuid endHandle (told.of_log rfl) locked
  | cons c l =>
    obtain ⟨l₁, l₂, rfl, hl₁, hc, rfl⟩ := List.filter_eq_cons_iff.mp hfilter
    rw [hfilter] at reports
    have hstored : dm.attrs = (s.declaration :: (done ++ l₁)) ++ c.bare :: l₂.map Attr.bare := by
      rw [stored, List.map_append, List.map_cons, hbare (by simp +contextual [attrs]) hl₁]
      simp
    have hascending : dm.attrs.Pairwise fun a b => a.handle < b.handle := by
      have hlayout := s.layout_ascending
      rw [← List.pairwise_map (f := Attr.handle) (R := (· < ·))] at hlayout ⊢
      have hhandles : dm.attrs.map Attr.handle = s.layout.map Attr.handle := by
        rw [stored, Service.layout, attrs, List.map_cons, List.map_append, map_bare_handle,
          ← List.map_append, ← List.map_cons]
      rwa [hhandles]
    have hfind : Dm.attrFindByHandle dm.attrs c.handle = some (s.declaration :: (done ++ l₁)).length := by
      rw [hstored] at hascending ⊢
      exact searchByKey_append_cons hascending
    have hget : (dm.attrs.getD (s.declaration :: (done ++ l₁)).length c).isChrc = true := by
      rw [hstored, List.getD_append_right _ _ _ _ le_rfl, Nat.sub_self]
      exact hc
    have hprocess : Dm.discoveryProcessCharacteristic { dm with reports := none } (some c) =
        ({ dm with
          attrs := (s.declaration :: (done ++ l₁)) ++ c :: l₂.map Attr.bare
          reports := none }, .cont) := by
      simp only [Dm.discoveryProcessCharacteristic, hc, hfind, hget, Dm.setValue, Bool.true_eq_false,
        if_false, if_true]
      rw [hstored, modify_append_cons]
      rfl
    have hreport : dm.report db maxAttrs 0 = { dm with
        attrs := (s.declaration :: (done ++ l₁)) ++ c :: l₂.map Attr.bare
        reports := some (l₂.filter Attr.isChrc) } := by
      rw [report_cons reports ((callback_characteristic type _).trans hprocess), if_pos rfl]
    rw [hreport]
    exact .characteristicPass pre suf s services (done ++ l₁ ++ [c]) l₂ (by simp [attrs]) rfl type
      (by simp) uuid endHandle (told.of_log rfl) locked releasePending

theorem Phase.step (hcapacity : ∀ s ∈ db.services, s.layout.length ≤ maxAttrs) (h : Phase db svcUuid dm)
    (e : Event) (hguard : Undisturbed maxAttrs dm e) : Phase db svcUuid (dm.step db maxAttrs e) := by
  cases e with
  | report discoverErr =>
    obtain rfl : discoverErr = 0 := hguard.1
    cases h with
    | idle pre suf services reports before behind told locked released =>
      have hreport : dm.report db maxAttrs 0 = dm := by simp [Dm.report, reports]
      rw [Dm.step, hreport]
      exact .idle pre suf services reports before behind told locked released
    | servicePass pre suf services reports type endHandle told locked releasePending =>
      exact report_service hcapacity services reports type endHandle told locked releasePending hguard
    | attributePass pre suf s services done rest attrs reports type stored uuid endHandle told locked
        releasePending =>
      exact report_attribute hcapacity services attrs reports type stored uuid endHandle told locked
        releasePending
    | characteristicPass pre suf s services done rest attrs reports type stored uuid endHandle told locked
        releasePending =>
      exact report_characteristic services attrs reports type stored uuid endHandle told locked
        releasePending
  | dataRelease => exact h.dataRelease
  | dmContinue discoverErr =>
    obtain rfl : discoverErr = 0 := hguard
    exact h.dmContinue

end Steps

/-- What is stored and reported is right in every discovery of a database whose services have room,
as long as nothing disturbs it. -/
theorem gattDm_right {db : Database} {maxAttrs : Nat} {svcUuid : Option Uuid} {dm₀ dm : Dm}
    (hcapacity : ∀ s ∈ db.services, s.layout.length ≤ maxAttrs) (hstart : Dm.start db 0 svcUuid = .ok dm₀)
    (hdm : Reached (Dm.step db maxAttrs) (Undisturbed maxAttrs) dm₀ dm) : DmRight db svcUuid dm := by
  have hstep (dm : Dm) (e : Event) (h : Phase db svcUuid dm) (hguard : Undisturbed maxAttrs dm e) :
      Phase db svcUuid (dm.step db maxAttrs e) := h.step hcapacity e hguard
  exact (hdm.invariant (start_phase hstart) hstep).right

def battery : Service where
  primary := true
  handle := 16
  endHandle := 19
  perm := 0
  uuid := .u16 0x180F
  attrs := [⟨17, 0, .chrc, .chrc ⟨.u16 0x2A19, 18, 0x12⟩⟩, ⟨18, 0, .u16 0x2A19, .none⟩,
    ⟨19, 0, .u16 0x2902, .none⟩]
  handle_le := by decide
  inside := by decide
  ascending := by decide
  values := by simp [Attr.isChrc, Uuid.same, Uuid.to128, Uuid.chrc, Uuid.base]

def bareService (handle : Nat) : Service where
  primary := true
  handle := handle
  endHandle := handle
  perm := 0
  uuid := .u16 0x1801
  attrs := []
  handle_le := le_rfl
  inside _ ha := absurd ha List.not_mem_nil
  ascending := List.Pairwise.nil
  values _ ha := absurd ha List.not_mem_nil

def bareBehind : Database where
  services := [battery, bareService 40]
  ascending := by simp [battery, bareService]
  bounded := by simp [battery, bareService]

def bareInFront : Database where
  services := [bareService 9, battery]
  ascending := by simp [battery, bareService]
  bounded := by simp [battery, bareService]

def fullService : List Event := List.replicate 7 (.report 0)

def searchAll : List Event :=
  fullService ++ [.dataRelease, .dmContinue 0, .report 0, .report 0, .dmContinue 0]

theorem searchAll_right : ∃ dm₀, Dm.start bareBehind 0 none = .ok dm₀ ∧
    DmRight bareBehind none (searchAll.foldl (Dm.step bareBehind 4) dm₀) ∧
    (searchAll.foldl (Dm.step bareBehind 4) dm₀).log =
      [.completed battery.layout, .serviceNotFound, .serviceNotFound] := by
  have hcapacity : ∀ s ∈ bareBehind.services, s.layout.length ≤ 4 := by decide
  refine ⟨_, rfl, gattDm_right hcapacity rfl (Reached.run .start ?_), ?_⟩
  · decide
  · decide

/-- The declaration that is skipped comes in front of the attributes of the next service. -/
theorem bareInFront_not_right : ∃ dm₀ dm, Dm.start bareInFront 0 none = .ok dm₀ ∧
    Reached (Dm.step bareInFront 6) (fun _ _ => True) dm₀ dm ∧ ¬ DmRight bareInFront none dm := by
  let events : List Event := .report 0 :: fullService
  have hguarded : Reached.Guarded (Dm.step bareInFront 6) (fun _ _ => True)
      (Dm.gattDiscover bareInFront ⟨none, 0x0001, 0xffff, .primary, [], true, false, none, []⟩)
      events := by decide
  refine ⟨_, _, rfl, Reached.run .start hguarded, fun hright => ?_⟩
  have hfound := hright.found
  rw [← List.isPrefixOf_iff_prefix] at hfound
  exact absurd hfound (by decide)

end SdkNrf.Gatt
