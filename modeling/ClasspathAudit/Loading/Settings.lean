import ClasspathAudit.Model.Jar

/-!
Settings of the loader.
-/

namespace ClasspathAudit

def defaultMaxRelease : Int := 25

structure LoaderSettings where
  /-- Entries of higher version directories are skipped. -/
  maxRelease : Int := defaultMaxRelease
  /-- Whether archives inside an archive are loaded as records of their own. -/
  nestedJars : Bool := true
  /-- Whether entries that are no classes are recorded. -/
  resources : Bool := true
  /-- How many parsed classes are kept for reuse; zero keeps none. -/
  cacheSize : Int := 4096
  workers : Int := 4
deriving DecidableEq, Repr

def LoaderSettings.init (settings : LoaderSettings) : LoaderSettings :=
  { settings with
    maxRelease := if settings.maxRelease < baseRelease then defaultMaxRelease else settings.maxRelease
    workers := if settings.workers ≤ 0 then 4 else settings.workers
    cacheSize := max settings.cacheSize 0 }

end ClasspathAudit
