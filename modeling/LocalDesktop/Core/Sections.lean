/- GID: LocalDesktop/Core/Sections
   generality: G
   digest: When a table that does not deserialize leaves the other group alone. -/

import LocalDesktop.Core.Tables

set_option autoImplicit false
set_option relaxedAutoImplicit false

namespace LocalDesktop.Core.Sections

open Foundation.Strings Foundation.FileTree Foundation.Effects Platform Config ConfigLines
  ConfigRun TomlLayout LineToml Tables

/-- In the mixed document both groups can be read. -/
def Mended (mixed : Option Document) : Prop :=
  (mixed.bind userGroup).isSome = true ∧ (mixed.bind commandGroup).isSome = true

instance mendedDecidable (mixed : Option Document) : Decidable (Mended mixed) :=
  inferInstanceAs (Decidable (_ ∧ _))

end LocalDesktop.Core.Sections
