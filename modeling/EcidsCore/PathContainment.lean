import EcidsCore.HistoryScan
import EcidsCore.RequestSpecs

set_option autoImplicit false

/-! Where the paths lie that the requests of a client reach. -/
namespace EcidsCore
open ByteText PathResolution

variable {R : Type}

/-- A path as the system reads it, up to its first NUL. -/
def cPath (p : Bytes) : Bytes := p.takeWhile (· ≠ 0)

def Inside (cwd : List Bytes) (root p : Bytes) : Prop :=
  resolvedPath cwd (cPath root) <+: resolvedPath cwd (cPath p)

def Contained (cwd : List Bytes) (root p : Bytes) : Prop :=
  Inside cwd root p ∧
    ∀ rel rest, p = root ++ slash :: rel ++ slash :: rest → Inside cwd root (root ++ slash :: rel)

/-- A relative path that never climbs above where it starts. -/
def NeverClimbs (rel : Bytes) : Prop := (depth fullStop 0 (components slash (cPath rel))).isSome

instance (rel : Bytes) : Decidable (NeverClimbs rel) := inferInstanceAs (Decidable (_ = true))

instance (cwd : List Bytes) (root p : Bytes) : Decidable (Inside cwd root p) :=
  inferInstanceAs (Decidable (_ <+: _))

theorem cPath_append {a : Bytes} (h : 0 ∉ a) (b : Bytes) : cPath (a ++ b) = a ++ cPath b :=
  List.takeWhile_append_of_pos fun c hc => by simpa using fun he : c = 0 => h (he ▸ hc)

theorem cPath_of_plain {a : Bytes} (h : 0 ∉ a) : cPath a = a := by
  have ha := cPath_append h []
  rwa [List.append_nil, show cPath [] = [] from rfl, List.append_nil] at ha

theorem cPath_append_nul {a : Bytes} (h : 0 ∈ a) (b : Bytes) : cPath (a ++ b) = cPath a := by
  induction a with
  | nil => cases h
  | cons c a ih =>
    by_cases hc : c = 0
    · subst hc
      rfl
    · have ha : 0 ∈ a := (List.mem_cons.1 h).resolve_left (Ne.symm hc)
      have hcons : ∀ l, cPath (c :: l) = c :: cPath l := by
        intro l
        exact List.takeWhile_cons_of_pos (by simpa using hc)
      rw [List.cons_append, hcons, hcons, ih ha]

theorem components_cPath (a b : Bytes) :
    components slash (cPath (a ++ slash :: b)) =
      if 0 ∈ a then components slash (cPath a)
      else components slash (cPath a) ++ components slash (cPath b) := by
  by_cases h : 0 ∈ a
  · rw [if_pos h, cPath_append_nul h]
  · have hb : cPath (slash :: b) = slash :: cPath b := rfl
    rw [if_neg h, cPath_append h, cPath_of_plain h, hb, components_append]

theorem inside_refl (cwd : List Bytes) (root : Bytes) : Inside cwd root root :=
  List.prefix_refl _

theorem inside_of_neverClimbs {root rel : Bytes} (hroot : root ≠ []) (h : NeverClimbs rel)
    (cwd : List Bytes) : Inside cwd root (root ++ slash :: rel) := by
  by_cases hnul : 0 ∈ root
  · simp only [Inside, cPath_append_nul hnul, List.prefix_refl]
  · obtain ⟨d, hd⟩ := Option.isSome_iff_exists.1 h
    have hhead : (cPath (root ++ slash :: rel)).head? = (cPath root).head? := by
      rw [cPath_append hnul, cPath_of_plain hnul]
      exact List.head?_append_of_ne_nil _ hroot
    rw [Inside, resolvedPath, resolvedPath, hhead, components_cPath, if_neg hnul, resolve_append]
    exact resolve_prefix hd _

theorem NeverClimbs.left {a b : Bytes} (h : NeverClimbs (a ++ slash :: b)) : NeverClimbs a := by
  rw [NeverClimbs, components_cPath] at h
  by_cases hnul : 0 ∈ a
  · rwa [if_pos hnul] at h
  · rw [if_neg hnul, depth_append] at h
    exact Option.isSome_of_isSome_bind h

theorem depth_name {name : Bytes} (hs : slash ∉ name) (hd : name.head? ≠ some fullStop) (d : ℕ) :
    (depth fullStop d (components slash (cPath name))).isSome := by
  have hsub : slash ∉ cPath name := fun hm => hs ((List.takeWhile_sublist _).mem hm)
  have hclimb : ¬ Climbs fullStop (cPath name) := by
    intro hc
    have hmem : (cPath name).head? = some fullStop := by
      rw [hc]
      rfl
    cases name with
    | nil => cases hmem
    | cons c name =>
      rw [cPath, List.takeWhile_cons] at hmem
      split at hmem
      · exact hd hmem
      · cases hmem
  rw [components, List.splitOn_eq_singleton hsub]
  exact depth_isSome_of_no_climb (by simpa using hclimb) d

theorem NeverClimbs.snoc {a name : Bytes} (h : NeverClimbs a) (hs : slash ∉ name)
    (hd : name.head? ≠ some fullStop) : NeverClimbs (a ++ slash :: name) := by
  rw [NeverClimbs, components_cPath]
  by_cases hnul : 0 ∈ a
  · rwa [if_pos hnul]
  · obtain ⟨d, hdep⟩ := Option.isSome_iff_exists.1 h
    rw [if_neg hnul, depth_append, hdep]
    exact depth_name hs hd d

theorem contained_root (cwd : List Bytes) (root : Bytes) : Contained cwd root root := by
  refine ⟨inside_refl cwd root, ?_⟩
  intro rel rest h
  have hlen := congrArg List.length h
  simp only [List.length_append, List.length_cons] at hlen
  omega

theorem contained_below {root rel : Bytes} (hroot : root ≠ []) (h : NeverClimbs rel)
    (cwd : List Bytes) : Contained cwd root (root ++ slash :: rel) := by
  refine ⟨inside_of_neverClimbs hroot h cwd, ?_⟩
  intro rel' rest he
  rw [List.append_assoc, List.append_cancel_left_eq, List.cons_append] at he
  rw [List.tail_eq_of_cons_eq he] at h
  exact inside_of_neverClimbs hroot h.left cwd

theorem resolvedPath_slash {r : Bytes} (hr : r ≠ []) (cwd : List Bytes) :
    resolvedPath cwd (cPath (r ++ [slash])) = resolvedPath cwd (cPath r) := by
  by_cases hnul : 0 ∈ r
  · rw [cPath_append_nul hnul]
  · have hc : components slash (cPath (r ++ [slash])) = components slash (cPath r) ++ [[]] := by
      rw [components_cPath, if_neg hnul]
      rfl
    have hhead : (cPath (r ++ [slash])).head? = (cPath r).head? := by
      rw [cPath_append hnul, cPath_of_plain hnul]
      exact List.head?_append_of_ne_nil _ hr
    rw [resolvedPath, resolvedPath, hhead, hc, resolve_append, resolve_cons, resolve_nil, enter,
      if_pos (stays_nil fullStop)]

theorem contained_name {root name : Bytes} (hlast : root.getLast? = some slash)
    (hs : slash ∉ name) (hd : name.head? ≠ some fullStop) (cwd : List Bytes) :
    Contained cwd root (root ++ name) := by
  obtain ⟨r, rfl⟩ := List.getLast?_eq_some_iff.1 hlast
  constructor
  · rw [Inside, List.append_assoc, List.singleton_append]
    by_cases hr : r = []
    · subst hr
      exact List.nil_prefix
    · rw [resolvedPath_slash hr]
      exact inside_of_neverClimbs hr (depth_name hs hd 0) cwd
  · intro rel rest he
    rw [List.append_assoc (r ++ [slash]), List.append_cancel_left_eq] at he
    rw [he] at hs
    exact absurd List.mem_cons_self hs

/-- The root, or a path below it that never climbs. -/
def Below (root p : Bytes) : Prop := p = root ∨ ∃ rel, p = root ++ slash :: rel ∧ NeverClimbs rel

theorem Below.contained {root p : Bytes} (hroot : root ≠ []) (h : Below root p) (cwd : List Bytes) :
    Contained cwd root p := by
  rcases h with rfl | ⟨rel, rfl, h⟩
  · exact contained_root cwd p
  · exact contained_below hroot h cwd

theorem Below.append {root p name : Bytes} (h : Below root p) (hs : slash ∉ name)
    (hd : name.head? ≠ some fullStop) : Below root (p ++ slash :: name) := by
  right
  rcases h with rfl | ⟨rel, rfl, h⟩
  · exact ⟨name, rfl, depth_name hs hd 0⟩
  · exact ⟨rel ++ slash :: name, by simp, h.snoc hs hd⟩

theorem joinPath_contained {root p name : Bytes} (hroot : root ≠ []) (h : Below root p)
    (hs : slash ∉ name) (hd : name.head? ≠ some fullStop) (cwd : List Bytes) :
    Contained cwd root (joinPath p name) := by
  by_cases hlast : p.getLast? = some slash
  · rw [joinPath, if_pos hlast]
    rcases h with rfl | ⟨rel, rfl, h⟩
    · exact contained_name hlast hs hd cwd
    · -- the relative path is empty or ends in the separator that the name follows
      rcases List.eq_nil_or_concat rel with rfl | ⟨rel, c, rfl⟩
      · rw [List.append_assoc]
        exact contained_below hroot (depth_name hs hd 0) cwd
      · rw [List.concat_eq_append] at hlast h ⊢
        have hrel : root ++ slash :: (rel ++ [c]) = (root ++ slash :: rel) ++ [c] := by simp
        rw [hrel, List.getLast?_concat] at hlast
        obtain rfl : c = slash := Option.some.inj hlast
        have hjoin : root ++ slash :: (rel ++ [slash]) ++ name =
            root ++ slash :: (rel ++ slash :: name) := by simp
        rw [hjoin]
        exact contained_below hroot (h.left.snoc hs hd) cwd
  · rw [joinPath, if_neg hlast]
    exact (h.append hs hd).contained hroot cwd

theorem recordFull_empty (root : String) : recordFull root "" = root := by
  rw [recordFull, if_neg (by simp), String.append_empty, String.append_empty]

def Separates (rel : Bytes) : Bytes → Prop
  | [] => rel = [] ∨ rel.head? = some slash
  | sep => sep = [slash]

theorem separates_append {rel sep : Bytes} (h : Separates rel sep) (hne : rel ≠ []) (more : Bytes) :
    Separates (rel ++ more) sep := by
  cases sep with
  | nil =>
    right
    rw [List.head?_append_of_ne_nil _ hne]
    exact h.resolve_left hne
  | cons c sep => exact h

theorem recordFull_separates (root recordPath : String) :
    ∃ sep, bytes (recordFull root recordPath) = bytes root ++ sep ++ bytes recordPath ∧
      Separates (bytes recordPath) sep := by
  by_cases hc : recordPath ≠ "" ∧ recordPath.toList.head? ≠ some '/'
  · refine ⟨[slash], ?_, rfl⟩
    rw [recordFull, if_pos hc]
    simp only [bytes_append]
    rfl
  · refine ⟨[], ?_, ?_⟩
    · rw [recordFull, if_neg hc]
      simp only [bytes_append]
      rfl
    · by_cases he : recordPath = ""
      · exact .inl (he ▸ rfl)
      · have hhead : recordPath.toList.head? = some '/' := by
          by_contra hh
          exact hc ⟨he, hh⟩
        obtain ⟨l, hl⟩ := List.head?_eq_some_iff.1 hhead
        have hrec : recordPath = "/" ++ String.ofList l := by
          rw [← String.ofList_toList (s := recordPath), hl]
          exact (String.ofList_append : String.ofList (['/'] ++ l) = _)
        right
        rw [hrec, bytes_append]
        rfl

theorem recordFull_below (root : String) {recordPath : String} (h : recordPath ≠ "") (tail : String) :
    ∃ rel, bytes (recordFull root recordPath ++ tail) = bytes root ++ slash :: rel ∧
      (NeverClimbs (bytes (recordPath ++ tail)) → NeverClimbs rel) := by
  obtain ⟨c, l, hl⟩ := List.exists_cons_of_ne_nil (l := recordPath.toList) (by simpa using h)
  by_cases hc : c = '/'
  · have hrec : recordPath = "/" ++ String.ofList l := by
      rw [← String.ofList_toList (s := recordPath), hl, hc]
      exact (String.ofList_append : String.ofList (['/'] ++ l) = _)
    refine ⟨bytes (String.ofList l ++ tail), ?_, ?_⟩
    · rw [recordFull, if_neg (by simp [hl, hc]), hrec]
      simp only [bytes_append, List.append_assoc]
      rfl
    · intro hclimb
      rw [hrec, String.append_assoc, bytes_append] at hclimb
      rwa [NeverClimbs, show bytes "/" ++ bytes (String.ofList l ++ tail) =
        [] ++ slash :: bytes (String.ofList l ++ tail) from rfl, components_cPath,
        if_neg (by simp)] at hclimb
  · refine ⟨bytes (recordPath ++ tail), ?_, id⟩
    rw [recordFull, if_pos ⟨h, by simpa [hl] using hc⟩]
    simp only [bytes_append, List.append_assoc]
    rfl

theorem recordFull_reached (root : String) {recordPath : String}
    (h : NeverClimbs (bytes recordPath)) : Below (bytes root) (bytes (recordFull root recordPath)) := by
  by_cases he : recordPath = ""
  · subst he
    rw [recordFull_empty]
    exact .inl rfl
  · obtain ⟨rel, hrel, hclimb⟩ := recordFull_below root he ""
    rw [String.append_empty] at hrel
    rw [String.append_empty] at hclimb
    exact .inr ⟨rel, hrel, hclimb h⟩

theorem detailDir_reached {root full sub : String} (h : Below (bytes root) (bytes full))
    (hsub : sub ∈ subfolders) : Below (bytes root) (bytes (detailDir full sub)) := by
  have happend : ∀ name : String, slash ∉ bytes name → (bytes name).head? ≠ some fullStop →
      Below (bytes root) (bytes (full ++ "/" ++ name)) := by
    intro name hs hd
    have hbelow := h.append hs hd
    rwa [bytes_append, bytes_append, List.append_assoc]
  simp only [subfolders, List.mem_cons, List.not_mem_nil, or_false] at hsub
  rcases hsub with rfl | rfl | rfl | rfl
  · exact h
  · exact happend "installation" (by decide) (by decide)
  · exact happend "inspection" (by decide) (by decide)
  · exact happend "marking" (by decide) (by decide)

/-- `readdir` gives names, which hold no separator. -/
def FileSystem.NamesPlain (fs : FileSystem) : Prop := ∀ dir, ∀ name ∈ fs.readNames dir, slash ∉ name

theorem mem_detailFiles {fs : FileSystem} {full sub : String} {p : Bytes}
    (h : p ∈ detailFiles fs full sub) :
    ∃ name ∈ fs.readNames (bytes (detailDir full sub)), isStereoFile name ∧
      p = joinPath (bytes (detailDir full sub)) name := by
  rw [detailFiles, List.mem_mergeSort] at h
  obtain ⟨name, hname, rfl⟩ := List.mem_map.1 h
  obtain ⟨hmem, hstereo⟩ := List.mem_filter.1 hname
  have hboth : isStereoFile name ∧ 5 < name.length := by simpa using hstereo
  exact ⟨name, hmem, hboth.1, rfl⟩

theorem stereo_head {name : Bytes} (h : isStereoFile name) : name.head? ≠ some fullStop := by
  have hpre : startsWith (bytes "Stereo_") name := by
    simp only [isStereoFile, decide_eq_true_eq] at h
    exact h.1
  rw [startsWith_eq hpre, List.head?_append_of_ne_nil _ (by decide)]
  decide

theorem detailPaths_contained {fs : FileSystem} (hnames : fs.NamesPlain) {root full : String}
    (hroot : bytes root ≠ []) (h : Below (bytes root) (bytes full)) (cwd : List Bytes) :
    ∀ p ∈ detailPaths fs full, Contained cwd (bytes root) p := by
  intro p hp
  unfold detailPaths at hp
  split at hp
  · rcases List.mem_cons.1 hp with rfl | hp
    · exact h.contained hroot cwd
    · obtain ⟨sub, hsub, hp⟩ := List.mem_flatMap.1 hp
      have hdir := detailDir_reached h hsub
      rcases List.mem_cons.1 hp with rfl | hp
      · exact hdir.contained hroot cwd
      · obtain ⟨name, hmem, hstereo, rfl⟩ := mem_detailFiles hp
        exact joinPath_contained hroot hdir (hnames _ name hmem) (stereo_head hstereo) cwd
  · rw [List.mem_singleton.1 hp]
    exact h.contained hroot cwd

def clientPath (env : Env R) (method path body : Bytes) : Option Bytes :=
  match route method path with
  | .getImage =>
    (imageRequestOf env.lib body).toOption.map fun q =>
      bytes (q.recordPath ++ ((if q.phase = "" then "" else "/" ++ q.phase) ++ "/" ++ q.filename))
  | .getRecord => (recordPathOf env.lib body).toOption.map bytes
  | _ =>
    (startOf env.lib method path body).map fun q =>
      bytes (dbDatePathFromParts env.now ++ "/" ++ q.recordName env.now)

def OwnTail : Route → Bytes → Prop
  | .getRecord, tail => ∃ sub ∈ subfolders, tail = bytes (detailDir "" sub) ∨
      ∃ name, isStereoFile name ∧ slash ∉ name ∧
        (tail = bytes (detailDir "" sub) ++ name ∨ tail = bytes (detailDir "" sub) ++ slash :: name)
  | .startInspection, tail => tail = bytes "/installation" ∨ tail = bytes "/inspection"
  | _, tail => tail = []

def Joins (r : Route) (root rel p : Bytes) : Prop :=
  ∃ sep tail, p = root ++ sep ++ rel ++ tail ∧ Separates rel sep ∧ OwnTail r tail

theorem detailDir_append (full sub : String) :
    bytes (detailDir full sub) = bytes full ++ bytes (detailDir "" sub) := by
  unfold detailDir
  split
  · exact (List.append_nil _).symm
  · simp only [bytes_append, List.append_assoc]
    rfl

theorem joinPath_append (dir name : Bytes) :
    joinPath dir name = dir ++ name ∨ joinPath dir name = dir ++ slash :: name := by
  unfold joinPath
  split
  · exact .inl rfl
  · exact .inr rfl

theorem detailPaths_join {fs : FileSystem} (hnames : fs.NamesPlain) (root recordPath : String) :
    ∀ p ∈ detailPaths fs (recordFull root recordPath),
      Joins .getRecord (bytes root) (bytes recordPath) p := by
  obtain ⟨sep, hfull, hsep⟩ := recordFull_separates root recordPath
  have hdir : ∀ sub ∈ subfolders, Joins .getRecord (bytes root) (bytes recordPath)
      (bytes (detailDir (recordFull root recordPath) sub)) := by
    intro sub hsub
    refine ⟨sep, _, ?_, hsep, sub, hsub, .inl rfl⟩
    rw [detailDir_append, hfull]
  intro p hp
  unfold detailPaths at hp
  split at hp
  · rcases List.mem_cons.1 hp with rfl | hp
    · exact hdir "" (by decide)
    · obtain ⟨sub, hsub, hp⟩ := List.mem_flatMap.1 hp
      rcases List.mem_cons.1 hp with rfl | hp
      · exact hdir sub hsub
      · obtain ⟨name, hmem, hstereo, rfl⟩ := mem_detailFiles hp
        have hplain := hnames _ name hmem
        rcases joinPath_append (bytes (detailDir (recordFull root recordPath) sub)) name with h | h
        · refine ⟨sep, _, ?_, hsep, sub, hsub, .inr ⟨name, hstereo, hplain, .inl rfl⟩⟩
          rw [h, detailDir_append, hfull, List.append_assoc _ _ name]
        · refine ⟨sep, _, ?_, hsep, sub, hsub, .inr ⟨name, hstereo, hplain, .inr rfl⟩⟩
          rw [h, detailDir_append, hfull, List.append_assoc _ _ (slash :: name)]
  · rw [List.mem_singleton.1 hp]
    exact hdir "" (by decide)

theorem ensureDirs_mem {fs : FileSystem} {ds : List String} {p : Bytes}
    (h : p ∈ (ensureDirs fs ds).1) : ∃ d ∈ ds, p = bytes d := by
  induction ds with
  | nil => cases h
  | cons d ds ih =>
    rw [ensureDirs] at h
    cases hd : fs.createDirectories (bytes d) with
    | some t =>
      rw [hd] at h
      exact ⟨d, List.mem_cons_self, List.mem_singleton.1 h⟩
    | none =>
      rw [hd] at h
      rcases List.mem_cons.1 h with rfl | h
      · exact ⟨d, List.mem_cons_self, rfl⟩
      · obtain ⟨d', hd', he⟩ := ih h
        exact ⟨d', List.mem_cons_of_mem d hd', he⟩

theorem created_contained {env : Env R} {q : StartRequest} {c : Core R}
    (h : NeverClimbs (bytes (dbDatePathFromParts env.now ++ "/" ++ q.recordName env.now)))
    (hroot : bytes c.records.rootPath ≠ []) (cwd : List Bytes) :
    ∀ p ∈ (q.created env c).1, Contained cwd (bytes c.records.rootPath) p := by
  have hrec : Below (bytes c.records.rootPath) (bytes (q.recordPath env c)) := by
    refine .inr ⟨_, ?_, h⟩
    simp only [StartRequest.recordPath, RecordManager.recordPath, bytes_append, bytes_slash,
      List.append_assoc, List.cons_append, List.nil_append]
  have happend : ∀ name : String, slash ∉ bytes name → (bytes name).head? ≠ some fullStop →
      Below (bytes c.records.rootPath) (bytes (q.recordPath env c ++ ("/" ++ name))) := by
    intro name hs hd
    rw [bytes_append, bytes_append, bytes_slash]
    exact hrec.append hs hd
  intro p hp
  obtain ⟨d, hd, rfl⟩ := ensureDirs_mem hp
  cases q with
  | inspection q =>
    simp only [StartRequest.dirs, RecordManager.inspectionDirs, List.mem_cons, List.not_mem_nil,
      or_false] at hd
    rcases hd with rfl | rfl
    · exact (happend "installation" (by decide) (by decide)).contained hroot cwd
    · exact (happend "inspection" (by decide) (by decide)).contained hroot cwd
  | aiTest q =>
    simp only [StartRequest.dirs, List.mem_singleton] at hd
    subst hd
    exact hrec.contained hroot cwd

def StartRequest.route : StartRequest → Route
  | .inspection _ => .startInspection
  | .aiTest _ => .startAiTest

theorem startOf_kind {lib : Nlohmann R} {method path body : Bytes} {q : StartRequest}
    (h : startOf lib method path body = some q) : q.route = route method path := by
  unfold startOf at h
  split at h
  · rename_i hr
    split at h
    · split at h
      · cases h
      · cases h
        exact hr.symm
    · cases h
  · rename_i hr
    split at h
    · split at h
      · cases h
      · cases h
        exact hr.symm
    · cases h
  · cases h

theorem created_joins (env : Env R) (q : StartRequest) (c : Core R) :
    ∀ p ∈ (q.created env c).1, Joins q.route (bytes c.records.rootPath)
      (bytes (dbDatePathFromParts env.now ++ "/" ++ q.recordName env.now)) p := by
  have hrec : bytes (q.recordPath env c) = bytes c.records.rootPath ++ [slash] ++
      bytes (dbDatePathFromParts env.now ++ "/" ++ q.recordName env.now) := by
    simp only [StartRequest.recordPath, RecordManager.recordPath, bytes_append, bytes_slash,
      List.append_assoc, List.cons_append, List.nil_append]
  intro p hp
  obtain ⟨d, hd, rfl⟩ := ensureDirs_mem hp
  cases q with
  | inspection q =>
    simp only [StartRequest.dirs, RecordManager.inspectionDirs, List.mem_cons, List.not_mem_nil,
      or_false] at hd
    rcases hd with rfl | rfl
    · exact ⟨[slash], _, by rw [bytes_append, hrec], rfl, .inl rfl⟩
    · exact ⟨[slash], _, by rw [bytes_append, hrec], rfl, .inr rfl⟩
  | aiTest q =>
    simp only [StartRequest.dirs, List.mem_singleton] at hd
    subst hd
    exact ⟨[slash], [], by rw [hrec, List.append_nil], rfl, rfl⟩

theorem outcome_accessed [Zero R] (env : Env R) (q : StartRequest) (b : Core R) :
    (q.outcome env b).core.accessed = b.accessed ++ (q.created env b).1 := by
  unfold StartRequest.outcome
  split
  · rfl
  · split
    · rfl
    · split
      · rfl
      · cases q <;> rfl

theorem start_accessed [Zero R] (env : Env R) (q : StartRequest) (c : Core R) :
    ∃ new, (runSteps env q.steps "" c).core.accessed = c.accessed ++ new ∧
      new ⊆ (q.created env c).1 := by
  by_cases ha : c.status.taskActive
  · rw [runSteps_conflict env q ha]
    exact ⟨[], (List.append_nil _).symm, List.nil_subset _⟩
  · rw [runSteps_start env q (by simpa using ha), outcome_accessed, StartRequest.begun_accessed,
      StartRequest.created_begun]
    exact ⟨_, rfl, List.Subset.refl _⟩

def Reaches [Double R] (env : Env R) (cwd : List Bytes) (method path body : Bytes) (c : Core R) :
    Prop :=
  ∃ new, (handle env method path body c).2.accessed = c.accessed ++ new ∧
    ∀ p ∈ new, ∃ rel, clientPath env method path body = some rel ∧
      Joins (route method path) (bytes c.records.rootPath) rel p ∧
      (NeverClimbs rel → Contained cwd (bytes c.records.rootPath) p)

theorem getImage_reaches [Double R] {env : Env R} {method path body : Bytes} {c : Core R}
    (hr : route method path = .getImage) (hroot : bytes c.records.rootPath ≠ []) (cwd : List Bytes) :
    Reaches env cwd method path body c := by
  unfold Reaches handle clientPath
  simp only [hr, getImage]
  cases hq : imageRequestOf env.lib body with
  | error e => exact ⟨[], (List.append_nil _).symm, List.forall_mem_nil _⟩
  | ok q =>
    by_cases he : q.recordPath = "" ∨ q.filename = ""
    · simp only [he, if_true]
      exact ⟨[], (List.append_nil _).symm, List.forall_mem_nil _⟩
    · simp only [he, if_false]
      refine ⟨_, rfl, ?_⟩
      intro p hp
      rw [List.mem_singleton.1 hp]
      have hne : q.recordPath ≠ "" := fun h => he (.inl h)
      have hpath : imagePath c.records.rootPath q = recordFull c.records.rootPath q.recordPath ++
          ((if q.phase = "" then "" else "/" ++ q.phase) ++ "/" ++ q.filename) := by
        simp only [imagePath, String.append_assoc]
      refine ⟨_, rfl, ?_, ?_⟩
      · obtain ⟨sep, hfull, hsep⟩ := recordFull_separates c.records.rootPath q.recordPath
        refine ⟨sep, [], ?_, ?_, rfl⟩ <;> dsimp only
        · rw [hpath, bytes_append, hfull, bytes_append q.recordPath, List.append_nil,
            List.append_assoc _ (bytes q.recordPath)]
        · rw [bytes_append q.recordPath]
          exact separates_append hsep (fun h => hne (bytes_injective h)) _
      · intro hclimb
        obtain ⟨rel, hrel, hbelow⟩ := recordFull_below c.records.rootPath hne
          ((if q.phase = "" then "" else "/" ++ q.phase) ++ "/" ++ q.filename)
        rw [hpath, hrel]
        exact contained_below hroot (hbelow hclimb) cwd

theorem getRecord_reaches [Double R] {env : Env R} (hnames : env.fs.NamesPlain)
    {method path body : Bytes} {c : Core R} (hr : route method path = .getRecord)
    (hroot : bytes c.records.rootPath ≠ []) (cwd : List Bytes) :
    Reaches env cwd method path body c := by
  unfold Reaches handle clientPath
  simp only [hr, getRecord]
  cases hq : recordPathOf env.lib body with
  | error e => exact ⟨[], (List.append_nil _).symm, List.forall_mem_nil _⟩
  | ok recordPath =>
    refine ⟨_, rfl, ?_⟩
    intro p hp
    exact ⟨_, rfl, detailPaths_join hnames _ _ p hp, fun hclimb =>
      detailPaths_contained hnames hroot (recordFull_reached _ hclimb) cwd p hp⟩

theorem start_reaches [Double R] {env : Env R} {method path body : Bytes} {c : Core R}
    (hr : (route method path).IsStart) (hroot : bytes c.records.rootPath ≠ []) (cwd : List Bytes) :
    Reaches env cwd method path body c := by
  have hclient : clientPath env method path body = (startOf env.lib method path body).map fun q =>
      bytes (dbDatePathFromParts env.now ++ "/" ++ q.recordName env.now) := by
    unfold clientPath
    rcases hr with hr | hr <;> rw [hr]
  rw [Reaches, hclient]
  cases hq : startOf env.lib method path body with
  | none =>
    obtain ⟨x, hx, -⟩ := handle_refused hr hq c
    rw [hx]
    exact ⟨[], (List.append_nil _).symm, List.forall_mem_nil _⟩
  | some q =>
    obtain ⟨new, hnew, hsub⟩ := start_accessed env q c
    rw [handle_start hq, finish_core]
    refine ⟨new, hnew, ?_⟩
    intro p hp
    exact ⟨_, rfl, startOf_kind hq ▸ created_joins env q c p (hsub hp),
      fun hclimb => created_contained hclimb hroot cwd p (hsub hp)⟩

theorem other_reaches [Double R] {env : Env R} {method path body : Bytes} {c : Core R}
    (h1 : route method path ≠ .getImage) (h2 : route method path ≠ .getRecord)
    (h3 : ¬ (route method path).IsStart) (cwd : List Bytes) :
    Reaches env cwd method path body c := by
  have hsame : (handle env method path body c).2.accessed = c.accessed := by
    unfold handle
    cases hr : route method path <;> rw [hr] at h1 h2 h3
    case getImage => exact absurd rfl h1
    case getRecord => exact absurd rfl h2
    case startInspection => exact absurd (.inl rfl) h3
    case startAiTest => exact absurd (.inr rfl) h3
    case setMode =>
      change (setMode env body c).2.accessed = _
      rcases setMode_core env body c with h | ⟨-, m, h⟩
      · rw [h]
      · rw [h, setMode_accessed]
    case setParameter =>
      obtain ⟨_, _, _, h⟩ := setParameter_core env body c
      change (setParameter env body c).2.accessed = _
      rw [h]
    case setSubTask =>
      obtain ⟨_, h⟩ := setSubTask_core env.lib body c
      change (setSubTask env.lib body c).2.accessed = _
      rw [h]
    case stopInspection => exact setMode_accessed _ _
    case stopAiTest => exact setMode_accessed _ _
  exact ⟨[], by rw [hsame, List.append_nil], List.forall_mem_nil _⟩

def recordBody : Bytes := bytes "\x7b\"record_path\":\"2026/a/..\"\x7d"

def climbingBody : Bytes :=
  bytes "\x7b\"filename\":\"passwd\",\"record_path\":\"../etc\"\x7d"

def recordTable : List (Bytes × Json ℤ) :=
  [(recordBody, .object [("record_path", .string "2026/a/..")]),
    (climbingBody, .object [("filename", .string "passwd"), ("record_path", .string "../etc")])]

end EcidsCore
