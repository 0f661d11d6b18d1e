import ClasspathAudit.Archive.Manifest
import ClasspathAudit.Archive.ZipWriter
import ClasspathAudit.Assembly.ClassSpec

/-!
Descriptions of archives to be assembled.
-/

namespace ClasspathAudit.Assembly

/-- Manifest attributes and entries, the latter in the order in which they are written. -/
structure JarSpec where
  attributes : Manifest := []
  entries : List (String × List UInt8) := []

namespace JarSpec

def addEntry (spec : JarSpec) (path : String) (content : List UInt8) : JarSpec :=
  { spec with entries := spec.entries ++ [(path, content)] }

def setAttribute (spec : JarSpec) (name value : String) : JarSpec :=
  { spec with attributes := spec.attributes.set name value }

def markMultiRelease (spec : JarSpec) : JarSpec := spec.setAttribute "Multi-Release" "true"

def addClass (spec : JarSpec) (c : ClassSpec) : JarSpec := spec.addEntry c.path c.bytes

def addVersioned (spec : JarSpec) (release : Int) (c : ClassSpec) : JarSpec :=
  spec.addEntry (s!"META-INF/versions/{release}/" ++ c.path) c.bytes

/-- The archive; a manifest with attributes is its first entry. -/
def bytes (spec : JarSpec) : List UInt8 :=
  let manifest := if spec.attributes.isEmpty then []
    else [(Archive.manifestPath, Text.encodeUtf8 (Archive.ManifestText.write spec.attributes))]
  Archive.Zip.write (manifest ++ spec.entries)

end JarSpec

end ClasspathAudit.Assembly
