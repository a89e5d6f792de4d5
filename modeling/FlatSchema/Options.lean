import FlatSchema.Key
import FlatSchema.SortedMap

namespace FlatSchema

/-- Options by key, in ascending order of the keys. -/
abbrev Options := SortedMap String String

/-- The options that belong to the user and not to the schema. -/
def Options.user (options : Options) : Options := options.filter (fun key _ => !isReserved key)

/-- Whether some key announces a watermark. -/
def Options.hasWatermark (options : Options) : Bool := options.keys.any isWatermarkKey

end FlatSchema
