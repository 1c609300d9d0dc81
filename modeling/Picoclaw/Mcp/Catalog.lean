import Picoclaw.Mcp.Manager

/-!
# Where a catalog entry comes from

Every entry `GetAllTools` or `GetToolsForWorkspace` lists is some stored, connected server's
allowed tool under the name `"<server>__<tool>"` (`mem_getAllTools`,
`mem_getToolsForWorkspace`). The two catalogs are one loop, so both are read off one lemma
about `collectTools`.

`GetServerSummary`, the description of the servers for a prompt, is not that loop: it lists
every stored server, connected or not, with every tool it holds. The catalog's names for a
server are the summary's names filtered by the connection flag and the tool lists
(`serverSummary_vs_catalog`), so the two agree on a server exactly when it has no tools, or is
connected and its lists admit all of them. A server added with `example_tool` on its deny list
and then connected is summarised with that tool while the catalog lists nothing
(`summary_lists_denied_tool`).
-/

namespace Picoclaw.Mcp

open Picoclaw.Go

theorem mem_allowedTools {s : MCPServer} {d : MCPToolDef} :
    d ∈ s.allowedTools ↔ ∃ t ∈ s.tools, s.isToolAllowed t.name = true ∧ d = s.prefixed t := by
  simp only [MCPServer.allowedTools, List.mem_map, List.mem_filter]
  exact ⟨fun ⟨t, ⟨ht, ha⟩, hd⟩ => ⟨t, ht, ha, hd.symm⟩,
    fun ⟨t, ht, ha, hd⟩ => ⟨t, ⟨ht, ha⟩, hd.symm⟩⟩

/-- **Provenance of the shared loop**: an entry is a stored server's allowed tool, renamed, from
a server that is connected and admitted. -/
theorem mem_collectTools {keep : MCPServer → Bool} {m : MCPManager} {d : MCPToolDef} :
    d ∈ collectTools keep m ↔
      ∃ name s, m.servers.get? name = some s ∧ s.connected = true ∧ keep s = true ∧
        ∃ t ∈ s.tools, s.isToolAllowed t.name = true ∧ d = s.prefixed t := by
  simp only [collectTools, List.mem_flatMap, GoMap.mem_values_iff]
  constructor
  · rintro ⟨s, ⟨name, hs⟩, hd⟩
    split at hd
    · rename_i hc
      simp only [Bool.and_eq_true] at hc
      exact ⟨name, s, hs, hc.1, hc.2, mem_allowedTools.mp hd⟩
    · cases hd
  · rintro ⟨name, s, hs, hc, ha, ht⟩
    exact ⟨s, ⟨name, hs⟩, by
      simp only [hc, ha, Bool.and_self, if_true]; exact mem_allowedTools.mpr ht⟩

theorem mem_getAllTools {m : MCPManager} {d : MCPToolDef} :
    d ∈ m.getAllTools ↔
      ∃ name s, m.servers.get? name = some s ∧ s.connected = true ∧
        ∃ t ∈ s.tools, s.isToolAllowed t.name = true ∧ d = s.prefixed t := by
  simp [MCPManager.getAllTools, mem_collectTools]

theorem mem_getToolsForWorkspace {m : MCPManager} {w : String} {d : MCPToolDef} :
    d ∈ m.getToolsForWorkspace w ↔
      ∃ name s, m.servers.get? name = some s ∧ s.connected = true ∧
        s.isWorkspaceAllowed w = true ∧
        ∃ t ∈ s.tools, s.isToolAllowed t.name = true ∧ d = s.prefixed t :=
  mem_collectTools

/-- The workspace catalog is part of the full one. -/
theorem mem_getAllTools_of_mem_getToolsForWorkspace {m : MCPManager} {w : String}
    {d : MCPToolDef} (h : d ∈ m.getToolsForWorkspace w) : d ∈ m.getAllTools := by
  obtain ⟨name, s, hs, hc, -, ht⟩ := mem_getToolsForWorkspace.mp h
  exact mem_getAllTools.mpr ⟨name, s, hs, hc, ht⟩

/-! ## The catalogs as multisets -/

/-- The list rule in the spec's words: an allow list, if non-empty, is authoritative; else the
deny list is applied. -/
def Admits (allowList denyList : List String) (x : String) : Prop :=
  (allowList ≠ [] ∧ x ∈ allowList) ∨ (allowList = [] ∧ x ∉ denyList)

instance (allowList denyList : List String) (x : String) : Decidable (Admits allowList denyList x) :=
  inferInstanceAs (Decidable (_ ∨ _))

theorem listsAdmit_eq_decide (allowList denyList : List String) (x : String) :
    listsAdmit allowList denyList x = decide (Admits allowList denyList x) :=
  Bool.eq_iff_iff.mpr ((listsAdmit_iff _ _ _).trans decide_eq_true_iff.symm)

/-- The catalog the spec describes, over servers in some order: for each connected server `s`
that `admitsServer` accepts and each tool `t` of `s` that `s`'s tool lists admit, one entry
named `s.name ++ "__" ++ t.name` with `t`'s description and schema. -/
def catalogSpec (admitsServer : MCPServer → Prop) [DecidablePred admitsServer]
    (servers : List MCPServer) : List MCPToolDef :=
  (servers.filter fun s => s.connected = true ∧ admitsServer s).flatMap fun s =>
    (s.tools.filter fun t => Admits s.toolAllowList s.toolDenyList t.name).map fun t =>
      { name := s.name ++ "__" ++ t.name, description := t.description, inputSchema := t.inputSchema }

theorem flatMap_ite_eq_flatMap_filter {α β : Type} (p : α → Bool) (f : α → List β) (l : List α) :
    l.flatMap (fun a => if p a then f a else []) = (l.filter p).flatMap f := by
  induction l with
  | nil => rfl
  | cons a l ih => cases h : p a <;> simp [List.filter_cons, h, ih]

/-- The shared loop lists the spec's catalog, in the order of the server map. -/
theorem collectTools_eq_catalogSpec (keep : MCPServer → Bool) (m : MCPManager) :
    collectTools keep m = catalogSpec (fun s => keep s = true) m.servers.values := by
  unfold collectTools catalogSpec
  rw [flatMap_ite_eq_flatMap_filter]
  congr 1
  · simp
  · funext s
    simp only [MCPServer.allowedTools, MCPServer.isToolAllowed, listsAdmit_eq_decide]
    rfl

/-- A weaker server condition gives a larger catalog. -/
theorem catalogSpec_sublist {p q : MCPServer → Prop} [DecidablePred p] [DecidablePred q]
    (h : ∀ s, p s → q s) (servers : List MCPServer) :
    (catalogSpec p servers).Sublist (catalogSpec q servers) := by
  induction servers with
  | nil => exact .slnil
  | cons s servers ih =>
    simp only [catalogSpec, List.filter_cons] at ih ⊢
    by_cases hp : s.connected = true ∧ p s
    · rw [if_pos (decide_eq_true hp), if_pos (decide_eq_true ⟨hp.1, h s hp.2⟩), List.flatMap_cons,
        List.flatMap_cons]
      exact ih.append_left _
    · rw [if_neg (by simpa using hp)]
      by_cases hq : s.connected = true ∧ q s
      · rw [if_pos (decide_eq_true hq), List.flatMap_cons]
        exact ih.trans (List.sublist_append_right _ _)
      · rwa [if_neg (by simpa using hq)]

/-- **The two catalogs, as multisets.** `GetAllTools` lists one entry `"<s>__<t>"` for each
connected server and each tool its tool lists admit, and nothing else; `GetToolsForWorkspace w`
lists those of the entries whose server also admits `w` under the same rule over its workspace
lists, so it is a sub-multiset of `GetAllTools`. -/
theorem catalogs_as_multisets (m : MCPManager) (w : String) :
    m.getAllTools.Perm (catalogSpec (fun _ => True) m.servers.values) ∧
      (m.getToolsForWorkspace w).Perm
        (catalogSpec (fun s => Admits s.workspaceAllowList s.workspaceDenyList w) m.servers.values) ∧
      (m.getToolsForWorkspace w).Subperm m.getAllTools := by
  have hall : m.getAllTools = catalogSpec (fun _ => True) m.servers.values := by
    simp only [MCPManager.getAllTools, collectTools_eq_catalogSpec]
  have hws : m.getToolsForWorkspace w =
      catalogSpec (fun s => Admits s.workspaceAllowList s.workspaceDenyList w) m.servers.values := by
    simp only [MCPManager.getToolsForWorkspace, collectTools_eq_catalogSpec,
      MCPServer.isWorkspaceAllowed, listsAdmit_eq_decide, decide_eq_true_eq]
  rw [hall, hws]
  exact ⟨.refl _, .refl _, (catalogSpec_sublist (fun _ _ => trivial) _).subperm⟩

/-! ## The server summary against the catalog -/

/-- The unprefixed names of the tools `GetAllTools` lists for server `s`: the names of its
allowed tools when it is connected, none otherwise. -/
def MCPServer.advertisedNames (s : MCPServer) : List String :=
  if s.connected then (s.tools.filter fun t => s.isToolAllowed t.name).map (·.name) else []

/-- The catalog's names, server by server in map order, prefixed with the server's name. -/
theorem getAllTools_names (m : MCPManager) :
    m.getAllTools.map (·.name) =
      m.servers.values.flatMap fun s => s.advertisedNames.map (s.name ++ "__" ++ ·) := by
  simp only [MCPManager.getAllTools, collectTools, List.map_flatMap]
  congr 1
  funext s
  by_cases hc : s.connected = true <;>
    simp [hc, MCPServer.advertisedNames, MCPServer.allowedTools, MCPServer.prefixed,
      Function.comp_def]

/-- A summary lists a server's names unfiltered exactly when filtering drops none of them. -/
theorem map_name_eq_advertisedNames_iff (s : MCPServer) :
    s.tools.map (·.name) = s.advertisedNames ↔
      s.tools = [] ∨ (s.connected = true ∧ ∀ t ∈ s.tools, s.isToolAllowed t.name = true) := by
  unfold MCPServer.advertisedNames
  by_cases hc : s.connected = true
  · have hfilter : (s.tools.filter fun t => s.isToolAllowed t.name).map (·.name) =
        s.tools.map (·.name) ↔ ∀ t ∈ s.tools, s.isToolAllowed t.name = true :=
      ⟨fun h => List.filter_length_eq_length.mp (by simpa using congrArg List.length h),
        fun h => by rw [List.filter_eq_self.mpr h]⟩
    rw [if_pos hc, eq_comm, hfilter]
    exact ⟨fun h => .inr ⟨hc, h⟩, by rintro (h | ⟨-, h⟩) <;> simp_all⟩
  · simp [hc]

theorem mem_zip_map_self {α β : Type} {f : α → β} {b : β} {a : α} :
    ∀ {l : List α}, (b, a) ∈ (l.map f).zip l ↔ a ∈ l ∧ b = f a
  | [] => by simp
  | x :: l => by
    simp only [List.map_cons, List.zip_cons_cons, List.mem_cons, Prod.mk.injEq, mem_zip_map_self]
    constructor
    · rintro (⟨rfl, rfl⟩ | ⟨ha, rfl⟩)
      · exact ⟨.inl rfl, rfl⟩
      · exact ⟨.inr ha, rfl⟩
    · rintro ⟨rfl | ha, rfl⟩
      · exact .inl ⟨rfl, rfl⟩
      · exact .inr ⟨ha, rfl⟩

/-- **The server summary against the catalog.** Every stored server has one summary, in map
order, naming it; the catalog's unprefixed names for it are the summary's names filtered by
its connection flag and its tool lists; and the summary lists exactly those names only when
the server has no tools, or is connected and its lists admit every tool. -/
theorem serverSummary_vs_catalog (m : MCPManager) :
    m.getAllTools.map (·.name) =
      m.servers.values.flatMap (fun s => s.advertisedNames.map (s.name ++ "__" ++ ·)) ∧
    m.getServerSummary.length = m.servers.values.length ∧
    ∀ sum s, (sum, s) ∈ m.getServerSummary.zip m.servers.values →
      sum.name = s.name ∧
      s.advertisedNames = sum.tools.filter (fun n => s.connected && s.isToolAllowed n) ∧
      (sum.tools = s.advertisedNames ↔
        s.tools = [] ∨ (s.connected = true ∧ ∀ t ∈ s.tools, s.isToolAllowed t.name = true)) := by
  refine ⟨getAllTools_names m, by simp [MCPManager.getServerSummary], fun sum s h => ?_⟩
  obtain ⟨-, rfl⟩ := mem_zip_map_self.mp h
  refine ⟨rfl, ?_, map_name_eq_advertisedNames_iff s⟩
  by_cases hc : s.connected = true <;>
    simp [MCPServer.advertisedNames, hc, List.filter_map, Function.comp_def]

/-- A server added with `example_tool` on its tool deny list. -/
def denyingConfig : MCPServerConfig :=
  { name := "fs", command := "npx", toolDenyList := ["example_tool"] }

/-- Added and connected, the server is summarised with the tool its deny list excludes, while
the catalog lists nothing. -/
theorem summary_lists_denied_tool :
    ((newManager.addServer denyingConfig).1.connectServer "fs").1.getServerSummary.map
        (·.tools) = [["example_tool"]] ∧
      ((newManager.addServer denyingConfig).1.connectServer "fs").1.getAllTools.map (·.name) = [] := by
  decide

end Picoclaw.Mcp
