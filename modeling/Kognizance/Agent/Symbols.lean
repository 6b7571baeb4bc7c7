import Mathlib.Data.List.Find
import Kognizance.Lib.Multimap
import Kognizance.Agent.NativeAgent
import Kognizance.Agent.KvmAgent

/-!
# Symbol lookup

`Symbol` enters the symbols of the image in a multimap by their address, and looks an
instruction up with `lower_bound`. The KVM agent keeps a second map with the ends of the
sections, and gives names as well. Addresses are the `long` values of the source, so -1 stands
for no function.

* `place_symbols`: `lower_bound` is the place between `previous` and `next`.
* `native_floor_iff`, `kvm_floor_iff`, `functionName_iff`: which addresses each of the three
  functions looks up correctly.
* `floorLookup_iff`: when all three do.
-/

namespace Kognizance

/-- A symbol as BFD has it, and the end of its section. -/
structure BfdSymbol where
  value : ℤ
  name : String
  sectionEnd : ℤ
  deriving DecidableEq, Repr

/-- The symbols of the image, in the order in which `Load` comes to them. -/
abbrev SymbolTable : Type := List BfdSymbol

/-- The loop of `Load` in the native agent, by the keys of `symbolMap`. -/
def Symbol.load (table : SymbolTable) : Symbol :=
  let symbolMap := table.foldl (fun symbolMap b => symbolMap.insert b.value b.name) Multimap.empty
  ⟨symbolMap.entries.map Prod.fst, List.pairwise_map.mpr symbolMap.sorted⟩

namespace KvmAgent

/-- `Symbol` of the KVM agent -/
structure Symbol where
  symbolMap : Multimap ℤ String
  symbolSectionEnd : Multimap ℤ ℤ

/-- The loop of `Load` -/
def Symbol.load (table : SymbolTable) : Symbol :=
  table.foldl (fun symbol b =>
    { symbolMap := symbol.symbolMap.insert b.value b.name
      symbolSectionEnd := symbol.symbolSectionEnd.insert b.value b.sectionEnd })
    ⟨Multimap.empty, Multimap.empty⟩

/-- `getStartAddress`. There is no result where it reads an entry at `end()`. -/
def Symbol.getStartAddress (symbol : Symbol) (addr : ℤ) : Option ℤ :=
  let itfound := symbol.symbolMap.lowerBound addr
  let sectionfound := symbol.symbolSectionEnd.lowerBound addr
  if itfound.isBegin then some addr
  else if itfound.isEnd then some (-1)
  else if symbol.symbolMap.contains addr then do
    if addr ≤ (← sectionfound.deref).2 then return (← itfound.deref).1 else return -1
  else do
    if addr ≤ (← sectionfound.prev.deref).2 then return (← itfound.prev.deref).1 else return -1

/-- `getFunctionName`. The iterator is not moved to the previous entry. -/
def Symbol.getFunctionName (symbol : Symbol) (addr : ℤ) : Option String :=
  let itfound := symbol.symbolMap.lowerBound addr
  if itfound.isBegin then do return (← itfound.deref).2
  else if itfound.isEnd then some ""
  else if symbol.symbolMap.contains addr then do return (← itfound.deref).2
  else do return (← itfound.deref).2

end KvmAgent

namespace SymbolTable

variable {table : SymbolTable} {addr s : ℤ}

/-- The last symbol at the greatest address below `addr`. -/
def previous (table : SymbolTable) (addr : ℤ) : Option BfdSymbol :=
  table.reverse.find? fun b => b.value < addr ∧ ∀ c ∈ table, c.value < addr → c.value ≤ b.value

/-- The first symbol at the least address from `addr` on. -/
def next (table : SymbolTable) (addr : ℤ) : Option BfdSymbol :=
  table.find? fun b => addr ≤ b.value ∧ ∀ c ∈ table, addr ≤ c.value → b.value ≤ c.value

/-- `s` is the greatest symbol address up to `addr`. -/
def IsFloor (table : SymbolTable) (addr s : ℤ) : Prop :=
  IsGreatest {x | x ≤ addr ∧ ∃ b ∈ table, b.value = x} s

/-- `addr` lies below the end of the section of a symbol at `s`. -/
def InSection (table : SymbolTable) (s addr : ℤ) : Prop :=
  ∃ b ∈ table, b.value = s ∧ addr < b.sectionEnd

/-- The symbols by their addresses: both maps of the KVM agent in one. -/
def symbols (table : SymbolTable) : Multimap ℤ BfdSymbol :=
  Multimap.ofList (table.map fun b => (b.value, b))

/-! ### The place of `lower_bound` -/

theorem mem_symbols {e : ℤ × BfdSymbol} :
    e ∈ table.symbols.entries ↔ e.2 ∈ table ∧ e.1 = e.2.value := by
  unfold symbols
  rw [Multimap.mem_ofList, List.mem_map]
  constructor
  · rintro ⟨b, hb, rfl⟩
    exact ⟨hb, rfl⟩
  · rintro ⟨hb, he⟩
    exact ⟨e.2, hb, Prod.ext he.symm rfl⟩

theorem filter_symbols (table : SymbolTable) (k : ℤ) :
    (table.symbols.entries.filter fun e => e.1 = k) =
      (table.filter fun b => b.value = k).map fun b => (b.value, b) := by
  unfold symbols
  rw [Multimap.filter_ofList, List.filter_map]
  rfl

theorem exists_mem_symbols {x : ℤ} :
    (∃ e ∈ table.symbols.entries, e.1 = x) ↔ ∃ b ∈ table, b.value = x := by
  constructor
  · rintro ⟨e, he, rfl⟩
    exact ⟨e.2, (mem_symbols.mp he).1, (mem_symbols.mp he).2.symm⟩
  · rintro ⟨b, hb, rfl⟩
    exact ⟨(b.value, b), mem_symbols.mpr ⟨hb, rfl⟩, rfl⟩

/-- The entry before the place, in the order of the table. -/
theorem head?_before (table : SymbolTable) (addr : ℤ) :
    (table.symbols.lowerBound addr).before.head? =
      (table.previous addr).map fun b => (b.value, b) := by
  obtain ⟨hbefore, hrest, hall⟩ := table.symbols.lowerBound_cases addr
  unfold previous
  cases h : (table.symbols.lowerBound addr).before with
  | nil =>
    have hnone : ∀ b ∈ table.reverse,
        ¬ (b.value < addr ∧ ∀ c ∈ table, c.value < addr → c.value ≤ b.value) := by
      intro b hb hlt
      have hmem := hall (b.value, b) (mem_symbols.mpr ⟨List.mem_reverse.mp hb, rfl⟩)
      rw [h] at hmem
      exact absurd hlt.1 (not_lt.mpr (hrest _ (hmem.resolve_left List.not_mem_nil)).2)
    rw [List.find?_eq_none.mpr fun b hb => by simpa using hnone b hb]
    rfl
  | cons e before =>
    have hmem := mem_symbols.mp (hbefore e (h ▸ List.mem_cons_self)).1
    obtain ⟨⟨hlt, -⟩, hgreatest⟩ := Multimap.isGreatest_prev h
    -- the greatest address below is that of `e`, whose last symbol is `e`
    have hkey : ∀ b ∈ table,
        (b.value < addr ∧ ∀ c ∈ table, c.value < addr → c.value ≤ b.value) ↔
          b.value = e.1 := by
      intro b hb
      constructor
      · rintro ⟨hb', hmax⟩
        exact le_antisymm (hgreatest ⟨hb', exists_mem_symbols.mpr ⟨b, hb, rfl⟩⟩)
          (hmem.2 ▸ hmax e.2 hmem.1 (hmem.2 ▸ hlt))
      · rintro hbe
        exact ⟨hbe ▸ hlt, fun c hc hc' =>
          hbe ▸ hgreatest ⟨hc', exists_mem_symbols.mpr ⟨c, hc, rfl⟩⟩⟩
    have hlast := Multimap.getLast?_prev h
    rw [filter_symbols, List.getLast?_map, List.getLast?_eq_head?_reverse, ← List.filter_reverse,
      List.head?_filter] at hlast
    rw [List.head?_cons, ← hlast, List.find?_congr fun b hb => decide_eq_decide.mpr
      (hkey b (List.mem_reverse.mp hb))]

/-- The entry at the place, in the order of the table. -/
theorem head?_rest (table : SymbolTable) (addr : ℤ) :
    (table.symbols.lowerBound addr).rest.head? =
      (table.next addr).map fun b => (b.value, b) := by
  obtain ⟨hbefore, hrest, hall⟩ := table.symbols.lowerBound_cases addr
  unfold next
  cases h : (table.symbols.lowerBound addr).rest with
  | nil =>
    have hnone : ∀ b ∈ table,
        ¬ (addr ≤ b.value ∧ ∀ c ∈ table, addr ≤ c.value → b.value ≤ c.value) := by
      intro b hb hle
      have hmem := hall (b.value, b) (mem_symbols.mpr ⟨hb, rfl⟩)
      rw [h] at hmem
      exact absurd (hbefore _ (hmem.resolve_right List.not_mem_nil)).2 (not_lt.mpr hle.1)
    rw [List.find?_eq_none.mpr fun b hb => by simpa using hnone b hb]
    rfl
  | cons e rest =>
    have hmem := mem_symbols.mp (hrest e (h ▸ List.mem_cons_self)).1
    obtain ⟨⟨hle, -⟩, hleast⟩ := Multimap.isLeast_deref h
    -- the least address from `addr` on is that of `e`, whose first symbol is `e`
    have hkey : ∀ b ∈ table,
        (addr ≤ b.value ∧ ∀ c ∈ table, addr ≤ c.value → b.value ≤ c.value) ↔
          b.value = e.1 := by
      intro b hb
      constructor
      · rintro ⟨hb', hmin⟩
        exact le_antisymm (hmem.2 ▸ hmin e.2 hmem.1 (hmem.2 ▸ hle))
          (hleast ⟨hb', exists_mem_symbols.mpr ⟨b, hb, rfl⟩⟩)
      · rintro hbe
        exact ⟨hbe ▸ hle, fun c hc hc' =>
          hbe ▸ hleast ⟨hc', exists_mem_symbols.mpr ⟨c, hc, rfl⟩⟩⟩
    have hfirst := Multimap.head?_deref h
    rw [filter_symbols, List.head?_map, List.head?_filter] at hfirst
    rw [List.head?_cons, ← hfirst, List.find?_congr fun b hb => decide_eq_decide.mpr (hkey b hb)]

theorem before_cases (table : SymbolTable) (addr : ℤ) :
    table.previous addr = none ∧ (table.symbols.lowerBound addr).before = [] ∨
      ∃ p before, table.previous addr = some p ∧
        (table.symbols.lowerBound addr).before = (p.value, p) :: before := by
  have hhead := table.head?_before addr
  cases h : table.previous addr with
  | none => exact Or.inl ⟨rfl, List.head?_eq_none_iff.mp (by rw [hhead, h]; rfl)⟩
  | some p =>
    rw [h] at hhead
    obtain ⟨before, hbefore⟩ := List.head?_eq_some_iff.mp hhead
    exact Or.inr ⟨p, before, rfl, hbefore⟩

theorem rest_cases (table : SymbolTable) (addr : ℤ) :
    table.next addr = none ∧ (table.symbols.lowerBound addr).rest = [] ∨
      ∃ n rest, table.next addr = some n ∧
        (table.symbols.lowerBound addr).rest = (n.value, n) :: rest := by
  have hhead := table.head?_rest addr
  cases h : table.next addr with
  | none => exact Or.inl ⟨rfl, List.head?_eq_none_iff.mp (by rw [hhead, h]; rfl)⟩
  | some n =>
    rw [h] at hhead
    obtain ⟨rest, hrest⟩ := List.head?_eq_some_iff.mp hhead
    exact Or.inr ⟨n, rest, rfl, hrest⟩

/-! ### The neighbours -/

theorem previous_some {p : BfdSymbol} (h : table.previous addr = some p) :
    p ∈ table ∧ p.value < addr ∧ ∀ c ∈ table, c.value < addr → c.value ≤ p.value := by
  unfold previous at h
  exact ⟨List.mem_reverse.mp (List.mem_of_find?_eq_some h), by simpa using List.find?_some h⟩

theorem next_some {n : BfdSymbol} (h : table.next addr = some n) :
    n ∈ table ∧ addr ≤ n.value ∧ ∀ c ∈ table, addr ≤ c.value → n.value ≤ c.value := by
  unfold next at h
  exact ⟨List.mem_of_find?_eq_some h, by simpa using List.find?_some h⟩

theorem previous_none (h : table.previous addr = none) : ∀ c ∈ table, addr ≤ c.value := by
  intro c hc
  obtain ⟨-, hrest, hall⟩ := table.symbols.lowerBound_cases addr
  have hhead := table.head?_before addr
  rw [h, Option.map_none, List.head?_eq_none_iff] at hhead
  have hmem := hall (c.value, c) (mem_symbols.mpr ⟨hc, rfl⟩)
  rw [hhead] at hmem
  exact (hrest _ (hmem.resolve_left List.not_mem_nil)).2

theorem next_none (h : table.next addr = none) : ∀ c ∈ table, c.value < addr := by
  intro c hc
  obtain ⟨hbefore, -, hall⟩ := table.symbols.lowerBound_cases addr
  have hhead := table.head?_rest addr
  rw [h, Option.map_none, List.head?_eq_none_iff] at hhead
  have hmem := hall (c.value, c) (mem_symbols.mpr ⟨hc, rfl⟩)
  rw [hhead] at hmem
  exact (hbefore _ (hmem.resolve_right List.not_mem_nil)).2

theorem next_value_eq_iff {n : BfdSymbol} (h : table.next addr = some n) :
    n.value = addr ↔ ∃ b ∈ table, b.value = addr := by
  obtain ⟨hn, hle, hleast⟩ := next_some h
  constructor
  · exact fun heq => ⟨n, hn, heq⟩
  · rintro ⟨b, hb, rfl⟩
    exact le_antisymm (hleast b hb le_rfl) hle

theorem isFloor_of_hit (h : ∃ b ∈ table, b.value = addr) : IsFloor table addr s ↔ s = addr := by
  have hfloor : IsFloor table addr addr := ⟨⟨le_rfl, h⟩, fun x hx => hx.1⟩
  exact ⟨fun hs => hs.unique hfloor, fun hs => hs ▸ hfloor⟩

theorem isFloor_of_previous {p : BfdSymbol} (hmiss : ¬ ∃ b ∈ table, b.value = addr)
    (h : table.previous addr = some p) : IsFloor table addr s ↔ s = p.value := by
  obtain ⟨hp, hlt, hgreatest⟩ := previous_some h
  have hfloor : IsFloor table addr p.value := by
    refine ⟨⟨hlt.le, p, hp, rfl⟩, ?_⟩
    rintro _ ⟨hle, b, hb, rfl⟩
    exact hgreatest b hb (lt_of_le_of_ne hle fun heq => hmiss ⟨b, hb, heq⟩)
  exact ⟨fun hs => hs.unique hfloor, fun hs => hs ▸ hfloor⟩

theorem not_isFloor (hmiss : ¬ ∃ b ∈ table, b.value = addr) (h : table.previous addr = none) :
    ¬ IsFloor table addr s := by
  rintro ⟨⟨hle, b, hb, rfl⟩, -⟩
  exact hmiss ⟨b, hb, le_antisymm hle (previous_none h b hb)⟩

/-! ### The lookups, by the neighbours -/

/-- A map that the loop of `Load` fills has one field of the symbols. -/
theorem filled {W : Type} (f : BfdSymbol → W) (table : SymbolTable) :
    table.foldl (fun m b => m.insert b.value (f b)) Multimap.empty =
      table.symbols.mapValues f := by
  unfold symbols Multimap.ofList
  rw [List.foldl_map]
  change table.foldl _ (Multimap.empty.mapValues f) = _
  exact List.foldl_hom (Multimap.mapValues f) fun m b =>
    (Multimap.insert_mapValues f m b.value b).symm

theorem load_symbolMap (table : SymbolTable) :
    (KvmAgent.Symbol.load table).symbolMap = table.symbols.mapValues BfdSymbol.name := by
  rw [← filled]
  exact (List.foldl_hom KvmAgent.Symbol.symbolMap fun _ _ => rfl).symm

theorem load_symbolSectionEnd (table : SymbolTable) :
    (KvmAgent.Symbol.load table).symbolSectionEnd =
      table.symbols.mapValues BfdSymbol.sectionEnd := by
  rw [← filled]
  exact (List.foldl_hom KvmAgent.Symbol.symbolSectionEnd fun _ _ => rfl).symm

theorem native_load_symbolMap (table : SymbolTable) :
    (Symbol.load table).symbolMap = table.symbols.entries.map Prod.fst := by
  have hentries := congrArg (fun m => m.entries.map Prod.fst) (filled BfdSymbol.name table)
  exact hentries.trans List.map_map

theorem contains_symbols {n : BfdSymbol} (h : table.next addr = some n) :
    table.symbols.contains addr = true ↔ n.value = addr := by
  rw [Multimap.contains_iff, exists_mem_symbols, next_value_eq_iff h]

/-- The symbol whose address is returned, between two neighbours. -/
def found (p n : BfdSymbol) (addr : ℤ) : BfdSymbol := if n.value = addr then n else p

theorem native_getStartAddress (table : SymbolTable) (addr : ℤ) :
    (Symbol.load table).getStartAddress addr =
      match table.previous addr, table.next addr with
      | none, _ => addr
      | some _, none => -1
      | some p, some n => (found p n addr).value := by
  -- the keys of the map are the addresses of the table, in order
  have hbefore : ((Symbol.load table).symbolMap.takeWhile fun x => x < addr).getLast? =
      (table.symbols.lowerBound addr).before.head?.map Prod.fst := by
    rw [native_load_symbolMap, List.takeWhile_map, List.getLast?_map,
      List.getLast?_eq_head?_reverse]
    rfl
  have hrest : ((Symbol.load table).symbolMap.dropWhile fun x => x < addr) =
      (table.symbols.lowerBound addr).rest.map Prod.fst := by
    rw [native_load_symbolMap, List.dropWhile_map]
    rfl
  have hmem : addr ∈ (Symbol.load table).symbolMap ↔ ∃ b ∈ table, b.value = addr := by
    rw [native_load_symbolMap, List.mem_map, exists_mem_symbols]
  unfold Symbol.getStartAddress
  rw [hbefore, hrest]
  rcases table.before_cases addr with ⟨hp, hnil⟩ | ⟨p, before, hp, hcons⟩
  · -- no symbol lies below `addr`, which is returned as it is
    rw [hp, hnil]
    rfl
  · rw [hp, hcons]
    rcases table.rest_cases addr with ⟨hn, hnil⟩ | ⟨n, rest, hn, hcons⟩
    · -- `lower_bound` is the end of the map
      rw [hn, hnil]
      rfl
    · rw [hn, hcons]
      simp only [hmem, ← next_value_eq_iff hn]
      unfold found
      by_cases hit : n.value = addr
      · simp [hit]
      · simp [hit]

theorem kvm_getStartAddress (table : SymbolTable) (addr : ℤ) :
    (KvmAgent.Symbol.load table).getStartAddress addr =
      some (match table.previous addr, table.next addr with
      | none, _ => addr
      | some _, none => -1
      | some p, some n =>
        if addr ≤ (found p n addr).sectionEnd then (found p n addr).value else -1) := by
  unfold KvmAgent.Symbol.getStartAddress
  simp only [load_symbolMap, load_symbolSectionEnd, Multimap.lowerBound_mapValues,
    Multimap.contains_mapValues]
  rcases table.before_cases addr with ⟨hp, hnil⟩ | ⟨p, before, hp, hcons⟩
  · -- no symbol lies below `addr`
    rw [hp, hnil]
    rfl
  · rw [hp, hcons]
    rcases table.rest_cases addr with ⟨hn, hnil⟩ | ⟨n, rest, hn, hcons⟩
    · -- `lower_bound` is the end of the map, and the test of it returns -1
      rw [hn, hnil]
      rfl
    · -- both iterators are at `n`, and `--` takes them to `p`
      rw [hn, hcons]
      by_cases hit : n.value = addr
      · rw [if_pos ((contains_symbols hn).mpr hit)]
        simp only [found, if_pos hit, apply_ite some]
        rfl
      · rw [if_neg (mt (contains_symbols hn).mp hit)]
        simp only [found, if_neg hit, apply_ite some]
        rfl

theorem kvm_getFunctionName (table : SymbolTable) (addr : ℤ) :
    (KvmAgent.Symbol.load table).getFunctionName addr =
      match table.previous addr, table.next addr with
      | none, none => none
      | none, some n => some n.name
      | some _, none => some ""
      | some _, some n => some n.name := by
  unfold KvmAgent.Symbol.getFunctionName
  simp only [load_symbolMap, Multimap.lowerBound_mapValues, Multimap.contains_mapValues, ite_self]
  rcases table.before_cases addr with ⟨hp, hb⟩ | ⟨p, before, hp, hb⟩ <;>
    rcases table.rest_cases addr with ⟨hn, hr⟩ | ⟨n, rest, hn, hr⟩ <;>
    rw [hp, hn, hb, hr] <;> rfl

/-! ### Floors -/

/-- `r` is the greatest symbol address up to `addr` if that is in scope, and -1 if there is no
such address. -/
def FloorOf (table : SymbolTable) (scope : ℤ → Prop) (addr r : ℤ) : Prop :=
  (∃ s, IsFloor table addr s ∧ scope s ∧ r = s) ∨
    (¬ ∃ s, IsFloor table addr s ∧ scope s) ∧ r = -1

/-- **Symbol lookup is a floor lookup.** -/
structure FloorLookup (table : SymbolTable) (addr : ℤ) : Prop where
  native : FloorOf table (fun _ => True) addr ((Symbol.load table).getStartAddress addr)
  kvm : ∃ r, (KvmAgent.Symbol.load table).getStartAddress addr = some r ∧
    FloorOf table (fun s => InSection table s addr) addr r
  name : ∃ r name, (KvmAgent.Symbol.load table).getStartAddress addr = some r ∧
    (KvmAgent.Symbol.load table).getFunctionName addr = some name ∧
    (r ≠ -1 → ∃ b ∈ table, b.value = r ∧ b.name = name) ∧ (r = -1 → name = "")

/-- The native agent returns `addr` below all symbols, and -1 above them. -/
def NativeFloor (table : SymbolTable) (addr : ℤ) : Prop :=
  match table.previous addr, table.next addr with
  | none, none => addr = -1
  | none, some n => n.value = addr ∨ addr = -1
  | some p, none => p.value = -1
  | some _, some _ => True

/-- The KVM agent asks for the section only between two neighbours, and for one symbol of
those that share the address. -/
def KvmFloor (table : SymbolTable) (addr : ℤ) : Prop :=
  match table.previous addr, table.next addr with
  | none, _ => InSection table addr addr ∨ addr = -1
  | some p, none => p.value = -1 ∨ ¬ InSection table p.value addr
  | some p, some n =>
    let b := found p n addr
    b.value = -1 ∨ (addr ≤ b.sectionEnd ↔ InSection table b.value addr)

/-- The name is that of the next symbol, except above all symbols. -/
def NextBearsName (table : SymbolTable) (addr : ℤ) : Prop :=
  match table.previous addr, table.next addr with
  | none, none => False
  | none, some n => if addr = -1 then n.name = "" else n.value = addr
  | some _, none => True
  | some p, some n =>
    let b := found p n addr
    if addr ≤ b.sectionEnd ∧ b.value ≠ -1 then ∃ c ∈ table, c.value = b.value ∧ c.name = n.name
    else n.name = ""

variable {scope : ℤ → Prop} {r : ℤ}

theorem floorOf_iff (h : IsFloor table addr s) :
    FloorOf table scope addr r ↔ scope s ∧ r = s ∨ ¬ scope s ∧ r = -1 := by
  have hscope : (∃ s, IsFloor table addr s ∧ scope s) ↔ scope s :=
    ⟨fun ⟨s', hs', hscope⟩ => hs'.unique h ▸ hscope, fun hscope => ⟨s, h, hscope⟩⟩
  unfold FloorOf
  rw [hscope]
  refine or_congr_left ⟨?_, fun ⟨hs, hr⟩ => ⟨s, h, hs, hr⟩⟩
  rintro ⟨s', hs', hs, hr⟩
  exact hs'.unique h ▸ ⟨hs, hr⟩

theorem floorOf_iff_of_none (h : ∀ s, ¬ IsFloor table addr s) :
    FloorOf table scope addr r ↔ r = -1 := by
  constructor
  · rintro (⟨s, hs, -⟩ | ⟨-, hr⟩)
    · exact absurd hs (h s)
    · exact hr
  · exact fun hr => Or.inr ⟨fun ⟨s, hs, _⟩ => h s hs, hr⟩

theorem isFloor_found {p n : BfdSymbol} (hp : table.previous addr = some p)
    (hn : table.next addr = some n) : IsFloor table addr (found p n addr).value := by
  have hhit := next_value_eq_iff hn
  unfold found
  by_cases hit : n.value = addr
  · rw [if_pos hit]
    exact (isFloor_of_hit (hhit.mp hit)).mpr hit
  · rw [if_neg hit]
    exact (isFloor_of_previous (mt hhit.mpr hit) hp).mpr rfl

theorem not_hit_of_next_none (h : table.next addr = none) : ¬ ∃ b ∈ table, b.value = addr :=
  fun ⟨b, hb, heq⟩ => (next_none h b hb).ne heq

theorem native_floor_iff (table : SymbolTable) (addr : ℤ) :
    FloorOf table (fun _ => True) addr ((Symbol.load table).getStartAddress addr) ↔
      NativeFloor table addr := by
  rw [native_getStartAddress]
  unfold NativeFloor
  cases hp : table.previous addr with
  | none =>
    -- without a symbol below, `addr` is right if it is one, and else there is no floor
    by_cases hit : ∃ b ∈ table, b.value = addr
    · rw [floorOf_iff ((isFloor_of_hit hit).mpr rfl)]
      cases hn : table.next addr with
      | none => exact absurd hit (not_hit_of_next_none hn)
      | some n => simp [(next_value_eq_iff hn).mpr hit]
    · rw [floorOf_iff_of_none fun s => not_isFloor hit hp]
      cases hn : table.next addr with
      | none => rfl
      | some n => simp [mt (next_value_eq_iff hn).mp hit]
  | some p =>
    cases hn : table.next addr with
    | none =>
      -- past the last symbol -1 is returned, which would have to be the floor
      rw [floorOf_iff ((isFloor_of_previous (not_hit_of_next_none hn) hp).mpr rfl)]
      simp [eq_comm]
    | some n =>
      -- between two symbols the floor is the one that is found
      rw [floorOf_iff (isFloor_found hp hn)]
      simp

theorem kvm_floor_iff (table : SymbolTable) (addr : ℤ) :
    (∃ r, (KvmAgent.Symbol.load table).getStartAddress addr = some r ∧
      FloorOf table (fun s => InSection table s addr) addr r) ↔ KvmFloor table addr := by
  rw [kvm_getStartAddress]
  simp only [Option.some.injEq, exists_eq_left']
  unfold KvmFloor
  cases hp : table.previous addr with
  | none =>
    by_cases hit : ∃ b ∈ table, b.value = addr
    · -- what is returned must be the symbol's address, and in its section
      rw [floorOf_iff ((isFloor_of_hit hit).mpr rfl)]
      tauto
    · -- without a symbol at `addr` there is none to be in the section of
      have hout : ¬ InSection table addr addr := fun ⟨b, hb, heq, _⟩ => hit ⟨b, hb, heq⟩
      rw [floorOf_iff_of_none fun s => not_isFloor hit hp]
      exact (or_iff_right hout).symm
  | some p =>
    cases hn : table.next addr with
    | none =>
      rw [floorOf_iff ((isFloor_of_previous (not_hit_of_next_none hn) hp).mpr rfl)]
      simp only [and_true]
      tauto
    | some n =>
      rw [floorOf_iff (isFloor_found hp hn)]
      -- the end of the section decides between the symbol and -1
      by_cases hend : addr ≤ (found p n addr).sectionEnd
      · simp only [hend, if_true]
        tauto
      · simp only [hend, if_false]
        tauto

theorem functionName_iff (table : SymbolTable) (addr : ℤ) :
    (∃ r name, (KvmAgent.Symbol.load table).getStartAddress addr = some r ∧
      (KvmAgent.Symbol.load table).getFunctionName addr = some name ∧
      (r ≠ -1 → ∃ b ∈ table, b.value = r ∧ b.name = name) ∧ (r = -1 → name = "")) ↔
      NextBearsName table addr := by
  rw [kvm_getStartAddress, kvm_getFunctionName]
  simp only [Option.some.injEq, exists_and_left, exists_eq_left']
  unfold NextBearsName
  cases hp : table.previous addr with
  | none =>
    cases hn : table.next addr with
    | none => simp
    | some n =>
      -- -1 returned as an address is taken for a failure
      by_cases hone : addr = -1
      · simp [hone]
      · simp only [Option.some.injEq, exists_eq_left', hone, if_false, ne_eq, not_false_eq_true,
          forall_const, IsEmpty.forall_iff, and_true]
        constructor
        · rintro ⟨b, hb, heq, -⟩
          exact (next_value_eq_iff hn).mpr ⟨b, hb, heq⟩
        · exact fun heq => ⟨n, (next_some hn).1, heq, rfl⟩
  | some p =>
    cases hn : table.next addr with
    | none => simp
    | some n =>
      -- the address returned is the floor's, but the name is the one of the next symbol
      by_cases hend : addr ≤ (found p n addr).sectionEnd
      · by_cases hone : (found p n addr).value = -1
        · simp [hend, hone]
        · simp [hend, hone]
      · simp [hend]

/-- **When the symbol lookups are floor lookups.** -/
theorem floorLookup_iff (table : SymbolTable) (addr : ℤ) :
    FloorLookup table addr ↔
      NativeFloor table addr ∧ KvmFloor table addr ∧ NextBearsName table addr := by
  rw [← native_floor_iff, ← kvm_floor_iff, ← functionName_iff]
  exact ⟨fun h => ⟨h.native, h.kvm, h.name⟩, fun h => ⟨h.1, h.2.1, h.2.2⟩⟩

/-- Two functions in one section. -/
def twoFunctions : SymbolTable := [⟨0x1000, "main", 0x2000⟩, ⟨0x1100, "f", 0x2000⟩]

/-- **An address in the last function has none**, and one in `main` has the name of `f`. -/
theorem lastFunction_has_no_start :
    (Symbol.load twoFunctions).getStartAddress 0x1180 = -1 ∧
      (KvmAgent.Symbol.load twoFunctions).getStartAddress 0x1180 = some (-1) ∧
      (KvmAgent.Symbol.load twoFunctions).getStartAddress 0x1080 = some 0x1000 ∧
      (KvmAgent.Symbol.load twoFunctions).getFunctionName 0x1080 = some "f" ∧
      ¬ ∀ table addr, FloorLookup table addr := by
  have hnot : ¬ NativeFloor twoFunctions 0x1180 := by
    have hone : ¬ (0x1100 : ℤ) = -1 := by decide
    exact hone
  refine ⟨by decide, by decide, by decide, by decide, fun h => hnot ?_⟩
  exact (native_floor_iff _ _).mp (h twoFunctions 0x1180).native

end SymbolTable

end Kognizance
