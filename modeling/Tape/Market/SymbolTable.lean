/-!
# Tables by symbol

Every piece of state that a feed keeps for each market is a table from symbols to values. At most
one value stands under a symbol, and writing under one symbol leaves all others as they are.
-/

namespace Tape

abbrev SymbolTable (α : Type) := List (String × α)

namespace SymbolTable

def get? (symbol : String) : SymbolTable α → Option α
  | [] => none
  | (other, a) :: rest => if other = symbol then some a else get? symbol rest

def set (symbol : String) (a : α) : SymbolTable α → SymbolTable α
  | [] => [(symbol, a)]
  | (other, b) :: rest =>
      if other = symbol then (symbol, a) :: rest else (other, b) :: set symbol a rest

def erase (symbol : String) (table : SymbolTable α) : SymbolTable α :=
  table.filter fun entry => entry.1 ≠ symbol

theorem get?_set_self (symbol : String) (a : α) (table : SymbolTable α) :
    get? symbol (set symbol a table) = some a := by
  induction table with
  | nil => simp [set, get?]
  | cons entry rest ih =>
    obtain ⟨other, b⟩ := entry
    by_cases h : other = symbol <;> simp [set, get?, h, ih]

theorem get?_set_of_ne {symbol other : String} (h : other ≠ symbol) (a : α)
    (table : SymbolTable α) : get? other (set symbol a table) = get? other table := by
  induction table with
  | nil => simp [set, get?, Ne.symm h]
  | cons entry rest ih =>
    obtain ⟨held, b⟩ := entry
    by_cases same : held = symbol
    · simp [set, get?, same, Ne.symm h]
    · by_cases here : held = other
      · subst here
        simp [set, get?, same]
      · simp [set, get?, same, here, ih]

/-- What was written under a symbol gives way to what is written next. -/
theorem set_set (symbol : String) (a b : α) (table : SymbolTable α) :
    set symbol b (set symbol a table) = set symbol b table := by
  induction table with
  | nil => simp [set]
  | cons entry rest ih =>
    obtain ⟨other, c⟩ := entry
    by_cases same : other = symbol <;> simp [set, same, ih]

theorem get?_erase_self (symbol : String) (table : SymbolTable α) :
    get? symbol (erase symbol table) = none := by
  induction table with
  | nil => rfl
  | cons entry rest ih =>
    obtain ⟨other, b⟩ := entry
    by_cases h : other = symbol
    · simpa [erase, h] using ih
    · simpa [erase, h, get?] using ih

theorem get?_erase_of_ne {symbol other : String} (h : other ≠ symbol) (table : SymbolTable α) :
    get? other (erase symbol table) = get? other table := by
  induction table with
  | nil => rfl
  | cons entry rest ih =>
    obtain ⟨held, b⟩ := entry
    by_cases same : held = symbol
    · subst same
      simpa [erase, get?, Ne.symm h] using ih
    · by_cases here : held = other
      · subst here
        simp [erase, same, get?]
      · simpa [erase, same, get?, here] using ih

end SymbolTable

end Tape
