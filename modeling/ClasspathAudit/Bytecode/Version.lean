/-!
Class file versions and Java releases. Major version 44 + n belongs to release n, and releases before
5 are called 1.n.
-/

namespace ClasspathAudit.Version

/-- The value of a 64-bit word, which is what versions and releases are counted in. -/
def wrap (value : Int) : Int := Int.bmod value (0x10000000000000000)

def minMajor : Int := 45

def maxMajor : Int := 69

def releaseOf (major : Int) : Int := wrap (major - 44)

def majorFor (release : Int) : Int := wrap (release + 44)

def javaVersion (major : Int) : String :=
  let release := releaseOf major
  if release ≤ 0 then s!"Java ? ({major})"
  else if release < 5 then s!"Java 1.{release}"
  else s!"Java {release}"

end ClasspathAudit.Version
