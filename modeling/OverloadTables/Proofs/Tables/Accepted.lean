import OverloadTables.Proofs.Tables.Meaning
import OverloadTables.Proofs.Tables.Violations

/-!
# What accepted declarations say

Accepted declarations of one key agree, and so do those of one name, so that any of them tells what
the tables have.

* `Acceptable.descriptor?_of_mem`, `Acceptable.number?_of_mem`   what a declared key stands for;
* `Acceptable.concreteIn_of_mem`   the concrete type of a declared name;
* `Acceptable.concreteIn_eq`       the same for two catalogs, of which one has the types of the
                                   other among its own.
-/

namespace OverloadTables

theorem mem_baseNames {ds : List DeclaredType} {name : LooseText} :
    name ∈ baseNames ds ↔ ∃ d ∈ ds, d.name = name := by
  rw [baseNames, List.mem_eraseDups, List.mem_map]

namespace Content.Acceptable

variable {c c' : Content} (hc : c.Acceptable)
include hc

theorem descriptor?_of_mem {d : DeclaredType} (hd : d ∈ c.types) :
    c.descriptor? d.key = some (descriptorIn (baseNames c.types) d) := by
  obtain ⟨e, hfind, he⟩ := find?_agree (p := fun e => e.key = d.key) id hd rfl
    fun e he hk => hc.types e he d hd hk
  obtain rfl : e = d := he
  rw [descriptor?, hfind]
  rfl

theorem number?_of_mem {v : Version} (hv : v ∈ c.versions) : c.number? v.key = some v.number := by
  obtain ⟨w, hfind, hw⟩ := find?_agree (p := fun w => w.key = v.key) (·.number) hv rfl
    fun w hw hk => hc.versions w hw v hv hk
  rw [number?, hfind, Option.map_some, hw]

theorem concreteIn_of_mem {d : DeclaredType} (hd : d ∈ c.types) :
    concreteIn c.types d.name = d.concrete := by
  obtain ⟨e, hfind, he⟩ := find?_agree (p := fun e => e.name = d.name) (·.concrete) hd rfl
    fun e he hn => hc.concretes e he d hd hn
  rw [concreteIn, hfind, Option.bind_some, he]

/-- A name stands for one concrete type in two catalogs if the types of one stand in the other,
under whatever keys. -/
theorem concreteIn_eq (hc' : c'.Acceptable) (htypes : ∀ d ∈ c.types,
      ∃ d' ∈ c'.types, d'.name = d.name ∧ d'.concrete = d.concrete)
    {name : LooseText} (hname : name ∈ baseNames c.types) :
    concreteIn c'.types name = concreteIn c.types name := by
  obtain ⟨d, hd, rfl⟩ := mem_baseNames.mp hname
  obtain ⟨d', hd', hname', hconcrete⟩ := htypes d hd
  rw [hc.concreteIn_of_mem hd, ← hname', hc'.concreteIn_of_mem hd', hconcrete]

end Content.Acceptable
end OverloadTables
